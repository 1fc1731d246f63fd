import BoxArrow.Config
import BoxArrow.Toml.Document

/-!
# Configuration files

A configuration file is a TOML document. It is accepted as a whole or not at all.

## Main definitions

* `BoxArrow.Config.parse?` — the configuration that a text gives.
-/

namespace BoxArrow.Config

/-- The form in which an engine is decoded. Its tag may stand as the only key of a table, over a
table or an array without entries. -/
def engineForm : Toml.Value → Toml.Value
  | .table [(tag, .table [])] => .text tag
  | .table [(tag, .array [])] => .text tag
  | v => v

/-- The form in which a section is decoded. An array gives the fields of the section in their order,
and what stands after the last field is not looked at. -/
def sectionForm (shape : RecordShape) : Toml.Value → Toml.Value
  | .array items => .array (items.take shape.fields.length)
  | v => v

/-- The form in which the value under a key of the configuration is decoded. -/
def entryForm (key : String) (v : Toml.Value) : Toml.Value :=
  if key = "default_engine" then engineForm v
  else if key = "sources" then sectionForm Sources.shape v
  else if key = "render" then sectionForm renderShape v
  else v

/-- The form in which a configuration is decoded. -/
def decodedForm : Toml.Value → Toml.Value
  | .table entries => .table (entries.map fun e => (e.1, entryForm e.1 e.2))
  | v => v

/-- The configuration that a text gives. -/
def parse? (text : String) : Option Config := do
  let document ← Toml.parse? text
  match ofJson (← (decodedForm document).toJson?) with
  | .ok config => return config
  | .error _ => none

end BoxArrow.Config
