import MacroLint.MacroName
import MacroLint.Text.Lines

/-!
# Usage texts

Each macro whose parameters are checked has a template, one line that names its parameters, and a
documentation block. The block ends with worked examples, one literal a line below the heading
`Examples:`; every one of them is a valid literal.
-/

set_option autoImplicit false

namespace MacroLint

/-- What is shown about a macro when one of its literals is wrong. -/
structure Usage where
  template : Text
  doc : Text
  deriving DecidableEq, Repr

namespace Usage

/-- The literals below the heading `Examples:` of the documentation, without their indentation. -/
def examples (u : Usage) : List Text :=
  let below := (Text.lines u.doc).dropWhile fun line => Text.trim line != "Examples:".toList
  ((below.drop 1).map Text.trim).filter fun line => line.head? == some '[' || line.head? == some '<'

end Usage

/-! ## The texts -/

namespace MacroName

/-- Usage of `existsRow`. -/
def existsRowUsage : Usage where
  template := "[exists]<T>[table][condition][dynamic condition]"
  doc := Text.unlines [
    "Checks whether at least one row matches.",
    "- [table] and [condition] are required; [condition] is a WHERE clause without",
    "  the WHERE keyword and must reference a bind variable.",
    "- [condition] may be left empty when a [dynamic condition] is given.",
    "- Flag <T> turns [condition] into a complete statement that is wrapped as a",
    "  whole (useful for joins); [dynamic condition] is then not allowed.",
    "- A dynamic condition is a comma separated list of clauses joined with AND;",
    "  prefix a clause with /*#OR*/ to join it with OR.",
    "Examples:",
    "  [exists][elg_client_risk_calm][init_date = 20190301 and risk_level > :old_risk and client_id = :client_id]",
    "  [exists][elg_client_risk_calm][init_date = 20190301 and risk_level>:old_risk][client_id = :client_id]",
    "  [exists][elg_client_risk_calm][init_date = :init_date][risk_level < :risk_level, /*#OR*/client_id = :client_id]",
    "  [exists]<T>[elg_client_risk_calm][select count(0) from elg_client_risk_calm a join client_info b on a.client_id = b.client_id where b.branch_no = :branch_no]"]

/-- Usage of `delete`. -/
def deleteUsage : Usage where
  template := "[delete][table][condition][dynamic condition]"
  doc := Text.unlines [
    "Deletes the rows matching a condition.",
    "- [table] is required, [condition] must reference a bind variable.",
    "- [condition] may be left empty when every condition is dynamic.",
    "- A dynamic condition is a comma separated list of clauses joined with AND;",
    "  prefix a clause with /*#OR*/ to join it with OR.",
    "Examples:",
    "  [delete][elg_client_risk_calm][init_date = 20190301 and client_id = :client_id]",
    "  [delete][prd_test][][user_id = :user_id, create_date > :create_date]",
    "  [delete][prd_test][user_id = :user_id][create_date > :create_date]",
    "  [delete][prd_test][][user_id = :user_id, /*#OR*/create_date > :create_date]"]

/-- Usage of `insert`. -/
def insertUsage : Usage where
  template := "[insert][table][field list]"
  doc := Text.unlines [
    "Inserts a single row.",
    "- Each field is either `column` (bound to the parameter of the same name)",
    "  or `column=value` where value is a bind variable or SQL expression.",
    "- A column may appear only once.",
    "Examples:",
    "  [insert][elg_client_risk_calm][branch_no=:branch_no,client_id]",
    "  [insert][elg_client_risk_calm][branch_no=:branch_no,client_id,init_date=20190301,remark='']"]

/-- Usage of `batchInsert`. -/
def batchInsertUsage : Usage where
  template := "[batchInsert][table][field list]"
  doc := Text.unlines [
    "Inserts one row per element of a list parameter.",
    "- The field list has the same form as for insert.",
    "Examples:",
    "  [batchInsert][elg_client_risk_calm][branch_no=:branch_no,client_id]"]

/-- Usage of `getSerialNo`. -/
def getSerialNoUsage : Usage where
  template := "[getSerialNo][table][field list]"
  doc := Text.unlines [
    "Fetches the next serial number from a serial table.",
    "- The field list has the same form as for insert.",
    "Examples:",
    "  [getSerialNo][sps_serial_no][serial_type=:serial_type,branch_no]"]

/-- Usage of `batchDelete`. -/
def batchDeleteUsage : Usage where
  template := "[batchDelete][table][condition]"
  doc := Text.unlines [
    "Deletes rows once per element of a list parameter.",
    "- [condition] is a WHERE clause without the WHERE keyword and must reference",
    "  a bind variable.",
    "Examples:",
    "  [batchDelete][elg_client_risk_calm][init_date = 20190301 and client_id = :client_id]"]

/-- Usage of `getPrefetchSeq`. -/
def getPrefetchSeqUsage : Usage where
  template := "[getPrefetchSeq][table][condition]"
  doc := Text.unlines [
    "Reserves a block of sequence values.",
    "- [condition] is a WHERE clause without the WHERE keyword.",
    "Examples:",
    "  [getPrefetchSeq][sps_sequence][sequence_name = :sequence_name]"]

/-- Usage of `insertSelect`. -/
def insertSelectUsage : Usage where
  template := "[insertSelect][target table][source table][field mapping][condition]"
  doc := Text.unlines [
    "Copies rows from a source table into a target table.",
    "- Without [field mapping] every column the two tables share is copied.",
    "- [field mapping] lists target=source pairs for columns whose names differ;",
    "  a target column may be mapped only once.",
    "- [condition] is a WHERE clause on the source table.",
    "Examples:",
    "  [insertSelect][act_fund_account_control_jour][act_fund_account_jour][handle_flag=witness_flag][branch_no = :branch_no and op_entrust_way = :op_entrust_way]",
    "  [insertSelect][his_client_info][client_info]",
    "  [insertSelect][his_client_info][client_info][][branch_no = :branch_no]"]

/-- Usage of `select`. -/
def selectUsage : Usage where
  template := "[select][sql][query fields][condition][dynamic condition][group/order clause]"
  doc := Text.unlines [
    "Selects a single row.",
    "- [sql] is required; the other parameters are optional.",
    "- [query fields] lists the columns a join or sub-query returns.",
    "- [condition] is a fixed WHERE clause without the WHERE keyword.",
    "- [group/order clause] holds ORDER BY / GROUP BY; it must be used instead of",
    "  writing them in [sql] whenever a dynamic condition is present.",
    "- Flag <A> generates column aliases.",
    "- A dynamic condition is a comma separated list of clauses joined with AND;",
    "  prefix a clause with /*#OR*/ to join it with OR.",
    "Examples:",
    "  [select][select hs_nvl(risk_level_old, 0), init_date from elg_client_risk_calm][][client_id = :client_id and branch_no = 1]",
    "  [select][select * from (select client_id, exchange_type, current_balance from opt_fundreal where client_id = :client_id) t][client_id, exchange_type, current_balance]",
    "  [select][select hs_nvl(risk_level_old, 0), init_date from elg_client_risk_calm][][][client_id = :client_id, branch_no = :branch_no]",
    "  [select][select hs_nvl(risk_level_old, 0), init_date from elg_client_risk_calm][][client_id = :client_id and branch_no = '8888'][fund_account = :fund_account][order by init_date]",
    "  <A>[select][select risk_level_old, init_date from elg_client_risk_calm][][client_id = :client_id]",
    "  [select][select hs_nvl(risk_level_old, 0), init_date from elg_client_risk_calm][][][client_id = :client_id, /*#OR*/branch_no = :branch_no]"]

/-- Usage of `selectList`. -/
def selectListUsage : Usage where
  template := "[selectList][sql][query fields][condition][dynamic condition][group/order clause]"
  doc := Text.unlines [
    "Selects a list of rows. Parameters are the same as for select.",
    "Examples:",
    "  [selectList][select risk_level_old, init_date, corp_risk_level from elg_client_risk_calm][][client_id = :client_id and branch_no > :branch_no]",
    "  [selectList][select hs_nvl(risk_level_old, 0), init_date from elg_client_risk_calm][][][client_id = :client_id, /*#OR*/branch_no = :branch_no][group by init_date]"]

/-- Usage of `selectPage`. -/
def selectPageUsage : Usage where
  template := "[selectPage][sql][pageNo=:pageNo,pageSize=:pageSize,rownum=n][query fields][condition][dynamic condition][group/order clause]"
  doc := Text.unlines [
    "Selects one page of rows.",
    "- The paging block is required and must set rownum; pageNo and pageSize are",
    "  optional. Values are positive integers or bind variables.",
    "- The remaining parameters are the same as for select.",
    "Examples:",
    "  [selectPage][select risk_level_old, init_date, corp_risk_level from elg_client_risk_calm][pageNo=:pageNo,pageSize=:pageSize,rownum=1000][][client_id = :client_id and branch_no > :branch_no]",
    "  [selectPage][select * from (select client_id, exchange_type from opt_fundreal where client_id = :client_id) t][pageNo=:pageNo,pageSize=100,rownum=1000][client_id, exchange_type]",
    "  [selectPage][select hs_nvl(risk_level_old, 0), init_date from elg_client_risk_calm][rownum=1000][][][client_id = :client_id, /*#OR*/branch_no = :branch_no]",
    "  <A>[selectPage][select risk_level_old, init_date from elg_client_risk_calm][rownum=:rownum][][client_id = :client_id][][order by init_date]"]

/-- Usage of `selectRowNum`. -/
def selectRowNumUsage : Usage where
  template := "[selectRowNum][sql][rownum=n][query fields][condition][dynamic condition][group/order clause]"
  doc := Text.unlines [
    "Selects the first n rows.",
    "- [rownum=n] is required; n is a positive integer or a bind variable.",
    "- The remaining parameters are the same as for select.",
    "Examples:",
    "  [selectRowNum][select * from crt_sys_arg][rownum=1000][][user_id = :user_id]",
    "  [selectRowNum][select * from crt_sys_arg where user_id = :user_id][rownum=1000]",
    "  [selectRowNum][select hs_nvl(risk_level_old, 0), init_date from elg_client_risk_calm][rownum=1000][][][user_id = :user_id, company_no = :company_no]",
    "  [selectRowNum][select hs_nvl(risk_level_old, 0), init_date from elg_client_risk_calm][rownum=1000][][client_id = :client_id and branch_no = '8888'][fund_account = :fund_account][order by init_date]"]

/-- Usage of `update`. -/
def updateUsage : Usage where
  template := "[update][table][set fields][condition][set clause]"
  doc := Text.unlines [
    "Updates rows, in one of two forms.",
    "- Full form: the only parameter is a complete UPDATE statement. This covers",
    "  every case and is preferred.",
    "- Table form: [table] followed by [set fields] (column or column=value",
    "  pairs), [condition] (WHERE clause without WHERE) and [set clause] (raw SET",
    "  assignments for expressions the pair form cannot express). At least one of",
    "  [set fields] or [set clause] is required.",
    "Examples:",
    "  [update][update act_join_stockacct set socialral_type = case when socialral_type in ('0','1') then '2' end, client_name = :client_name where id_no = :id_no]",
    "  [update][client][branch_no=:branch_no,client_id][init_date = 20190301 and client_id = :client_id]",
    "  [update][prd_busin_entrust][init_date = :init_date,entrust_no=:report_no][init_date = :init_date and otc_entrust_status <> '2'][otc_entrust_status = case when otc_entrust_status in ('0', '1') then '2' else otc_entrust_status end]"]

/-- Usage of `getSequence`. -/
def getSequenceUsage : Usage where
  template := "[getSequence][table][sequence name]"
  doc := Text.unlines [
    "Fetches the next value of a named sequence.",
    "Examples:",
    "  [getSequence][sps_sequence][entrustseq]"]

/-- Usage of `truncate`. -/
def truncateUsage : Usage where
  template := "[truncate][table]"
  doc := Text.unlines [
    "Removes every row of a table.",
    "Examples:",
    "  [truncate][ses_sys_arg]"]

/-- The usage of a macro, `none` for a macro whose parameters are not checked. -/
def usage? : MacroName → Option Usage
  | existsRow => some existsRowUsage
  | delete => some deleteUsage
  | insert => some insertUsage
  | batchInsert => some batchInsertUsage
  | getSerialNo => some getSerialNoUsage
  | batchDelete => some batchDeleteUsage
  | getPrefetchSeq => some getPrefetchSeqUsage
  | insertSelect => some insertSelectUsage
  | select => some selectUsage
  | selectList => some selectListUsage
  | selectPage => some selectPageUsage
  | selectRowNum => some selectRowNumUsage
  | update => some updateUsage
  | getSequence => some getSequenceUsage
  | truncate => some truncateUsage
  | batchUpdate | getTableColumn | selectDynaSql | selectDynaRowNumSql | selectDynaPageSql => none

end MacroName
end MacroLint
