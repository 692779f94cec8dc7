/-!
# The plugin API

The errors that plugins return, and the column that holds the kind of a row.
-/

namespace StreamlingPlugins

inductive PluginError
  | execution (message : String)
  | internal (message : String)
  | state (message : String)
  | arrow (message : String)
  deriving DecidableEq

/-- `STREAMLING_COLUMN_NAME_OP` -/
def columnNameOp : String := "_gs_op"

end StreamlingPlugins
