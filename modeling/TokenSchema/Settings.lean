import TokenSchema.Error
import TokenSchema.Schema.Date

/-!
# Settings

What a host can set for reading and resolving, and the part of it that a document reader needs.
-/

namespace TokenSchema

/-- The settings of a host. -/
structure Settings where
  /-- The language in which texts are picked. -/
  locale : String
  /-- Identical requests made at the same time share one answer. -/
  coalesce : Bool
  /-- How deep attribute references may nest. -/
  maxDepth : Nat
  /-- The oldest supported schema, as text. -/
  minimumSchema : String
  /-- The newest supported schema, as text. -/
  currentSchema : String
  deriving DecidableEq, Repr

namespace Settings

/-- The settings of a host that sets nothing. -/
def standard : Settings :=
  { locale := "en"
    coalesce := true
    maxDepth := 8
    minimumSchema := SchemaDate.oldestSupported.text
    currentSchema := SchemaDate.implemented.text }

end Settings

/-- What a reader needs to know. -/
structure ReaderOptions where
  locale : String
  minimum : SchemaDate
  current : SchemaDate
  deriving DecidableEq, Repr

namespace Settings

/-- The reader options of the settings; the dates must be dates, and the window must not be empty. -/
def readerOptions (s : Settings) : Except SettingsError ReaderOptions :=
  match SchemaDate.parse s.minimumSchema with
  | none => .error (.invalidMinimum s.minimumSchema)
  | some minimum =>
      match SchemaDate.parse s.currentSchema with
      | none => .error (.invalidCurrent s.currentSchema)
      | some current =>
          if minimum.compare current = .gt then .error (.emptyWindow minimum.text current.text)
          else .ok ⟨s.locale, minimum, current⟩

end Settings

end TokenSchema
