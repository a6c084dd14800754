import ScriptBindings.BindingUnit
import ScriptBindings.Database.Validation

namespace ScriptBindings.Database

def plan (adapter : Adapter) (db : Database) : Run (List BindingUnit) := do
  Run.ofExcept db.validate
  let units ← Run.collect (Group.unit adapter) db.groups
  Run.ok (units.filterMap id)

end ScriptBindings.Database
