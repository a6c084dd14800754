import ScriptBindings.Database.Basic

namespace ScriptBindings

/-- Refuses a text that must not be empty. -/
def requireText (text entity : String) (cause : Cause) : Except BindError Unit :=
  if text = "" then .error (.malformed entity cause) else .ok ()

/-- Refuses a text that must not be blank. -/
def requireNonblank (text entity : String) (cause : Cause) : Except BindError Unit :=
  if Blank.isBlankText text then .error (.malformed entity cause) else .ok ()

def Callable.validateFree (path : String) (f : Callable) : Except BindError Unit :=
  if f.flags.nobind then .ok ()
  else do
    f.validate path
    f.boundSignatures.forM fun s => requireText s.location path .noDeclarationLocation

def Global.validate (path : String) (g : Global) : Except BindError Unit :=
  if g.flags.nobind then .ok ()
  else do
    requireText g.name path .noGlobalName
    requireNonblank g.type path .noGlobalType
    requireText g.location path .noGlobalLocation

def Enumeration.validate (path : String) (e : Enumeration) : Except BindError Unit :=
  if e.flags.nobind then .ok ()
  else do
    requireText e.name path .noEnumName
    requireText e.location path .noEnumLocation

def Callable.validateMember (className key : String) (f : Callable) : Except BindError Unit :=
  if f.flags.nobind then .ok () else f.validate (Scope.member className key)

def Attribute.validate (className key : String) (a : Attribute) : Except BindError Unit :=
  if a.flags.nobind then .ok ()
  else requireNonblank a.type (Scope.member className key) .noAttributeType

def Class.validate (path : String) (c : Class) : Except BindError Unit :=
  if c.flags.nobind then .ok ()
  else do
    requireText c.name path .noClassName
    requireText c.location path .noClassLocation
    c.constructors.forM fun s => s.validate path false
    c.methods.entries.forM fun e => e.2.validateMember path e.1
    c.attributes.entries.forM fun e => e.2.validate path e.1

def Database.validate (db : Database) : Except BindError Unit := do
  db.functions.entries.forM fun e => e.2.validateFree e.1
  db.globals.entries.forM fun e => e.2.validate e.1
  db.enums.entries.forM fun e => e.2.validate e.1
  db.classes.entries.forM fun e => e.2.validate e.1

end ScriptBindings
