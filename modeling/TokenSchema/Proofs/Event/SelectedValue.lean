import TokenSchema.Log
import TokenSchema.Proofs.Abi.Coercion

/-!
# Selected values — one argument of an event, read from its log

A log has the indexed arguments of its event in topics, one word each, and the others in its data. To find
one by name, its position on its own side is counted, and the count has to skip the same arguments that
the log puts on the other side. It does: an argument that is the first with its name is still the first
when its side is singled out (`exists_findIdx?_filter`).

`EventSource.selectValue?_carried` says what is found, whatever the layout of the event. A log may be
written with values as they are given, for what coercion does to them shows neither in words nor in bytes
(`Abi.Ty.word_of_coerce`, `Abi.Ty.payload?_of_coerce`).
-/

namespace TokenSchema

open TokenSchema.Bytes

/-! ## Positions -/

/-- The first that passes a test is still the first among those of its sort. -/
theorem exists_findIdx?_filter {α : Type} {xs : List α} {test : α → Bool} (sort : α → Bool) {a : α}
    (first : xs.find? test = some a) (sorted : sort a = true) :
    ∃ i, (xs.filter sort).findIdx? test = some i ∧ (xs.filter sort)[i]? = some a := by
  induction xs with
  | nil => cases first
  | cons x xs ih =>
      by_cases passes : test x = true
      · simp only [List.find?_cons, passes] at first
        obtain rfl := Option.some.inj first
        exact ⟨0, by simp [List.findIdx?_cons, sorted, passes]⟩
      · rw [Bool.not_eq_true] at passes
        simp only [List.find?_cons, passes] at first
        obtain ⟨i, found, there⟩ := ih first
        by_cases kept : sort x = true
        · exact ⟨i + 1, by simp [kept, List.findIdx?_cons, passes, found], by simp [kept, there]⟩
        · exact ⟨i, by simp [kept, found], by simp [kept, there]⟩

/-! ## Logs -/

/-- An argument of an event: its field, the value that is given for it, and what coercion makes of that.
An indexed argument without fixed size is in the log by a hash alone. -/
structure EventArgument where
  field : Field
  type : Abi.Ty
  given : Abi.Value
  value : Abi.Value
  hash : Word
  typed : Abi.lookup field.typeName = some type
  coerced : type.coerce given = .ok value

namespace EventArgument

/-- The topic of an indexed argument. -/
def topic (a : EventArgument) : Word :=
  if a.type.isDynamic then a.hash else a.given.word

/-- What a log tells of an argument. -/
def told (a : EventArgument) : Abi.Value :=
  if a.field.indexed && a.type.isDynamic then .fixed a.hash.bytes else a.value

/-- The arguments on one side: in topics, or in the data. -/
def side (args : List EventArgument) (indexed : Bool) : List EventArgument :=
  args.filter (·.field.indexed == indexed)

theorem has (a : EventArgument) : a.type.Has a.value :=
  Abi.Ty.has_of_coerce a.coerced

theorem ofTopic_topic (a : EventArgument) (indexed : a.field.indexed = true) :
    a.type.ofTopic a.topic = a.told := by
  cases dynamic : a.type.isDynamic with
  | true =>
      simp only [topic, told, dynamic, indexed, if_true, Bool.and_self, Abi.Ty.ofTopic]
      cases type : a.type with
      | bytes | string => rfl
      | _ => simp [type, Abi.Ty.isDynamic] at dynamic
  | false =>
      have static : a.value.payload? = none := by
        have same := a.has.isDynamic_eq
        rw [dynamic, Abi.Value.isDynamic, Option.isSome_eq_false_iff] at same
        simpa using same
      simp only [topic, told, dynamic, Bool.and_false, Bool.false_eq_true, if_false, Abi.Ty.ofTopic,
        ← Abi.Ty.word_of_coerce a.coerced, a.has.ofWord_word static]

end EventArgument

/-- The log of an event with these arguments. -/
structure LogEntry.Carries (log : LogEntry) (t : NamedType) (args : List EventArgument) : Prop where
  fields_eq : t.fields = args.map (·.field)
  topics_eq : log.topics = t.topic :: (EventArgument.side args true).map (·.topic)
  data_eq : log.data = Abi.encodeParams ((EventArgument.side args false).map (·.given))

namespace LogEntry.Carries

open EventArgument (side)

variable {log : LogEntry} {t : NamedType} {args : List EventArgument}

theorem side_eq (carries : log.Carries t args) (indexed : Bool) :
    t.side indexed = (side args indexed).map (·.field) := by
  rw [NamedType.side, carries.fields_eq, List.filter_map]
  rfl

theorem field?_eq (carries : log.Carries t args) (name : String) :
    t.field? name = (args.find? (·.field.name == name)).map (·.field) := by
  rw [NamedType.field?, carries.fields_eq, List.find?_map]
  rfl

/-- The position of an argument that is the first with its name is its place on its side. -/
theorem exists_position? (carries : log.Carries t args) {name : String} {a : EventArgument}
    (first : args.find? (·.field.name == name) = some a) :
    ∃ i, t.position? a.field.indexed name = some i ∧
      (side args a.field.indexed)[i]? = some a := by
  obtain ⟨i, found, there⟩ := exists_findIdx?_filter
    (fun b => b.field.indexed == a.field.indexed) first (by simp)
  refine ⟨i, ?_, there⟩
  rw [NamedType.position?, NamedType.fieldNames, carries.side_eq, List.map_map, List.findIdx?_map]
  exact found

theorem dataTypes_eq (carries : log.Carries t args) :
    t.dataTypes = (side args false).map (·.type) := by
  have known : ∀ found : List EventArgument,
      NamedType.knownTypes (found.map (·.field.typeName)) = found.map (·.type) := by
    intro found
    induction found with
    | nil => rfl
    | cons a rest ih => simp [NamedType.knownTypes, a.typed, ih]
  rw [NamedType.dataTypes, carries.side_eq, List.map_map]
  exact known (side args false)

/-- The data is read as the values that coercion makes of what is given. -/
theorem decodeParams_eq (carries : log.Carries t args) (small : log.data.length < 2 ^ 64) :
    Abi.decodeParams t.dataTypes log.data = .ok ((side args false).map (·.value)) := by
  have alike : log.data = Abi.encodeParams ((side args false).map (·.value)) := by
    rw [carries.data_eq]
    apply Abi.encodeParams_congr
    rw [List.forall₂_map_left_iff, List.forall₂_map_right_iff, List.forall₂_same]
    exact fun a _ => ⟨Abi.Ty.word_of_coerce a.coerced, Abi.Ty.payload?_of_coerce a.coerced⟩
  have members : List.Forall₂ Abi.Ty.Has ((side args false).map (·.type))
      ((side args false).map (·.value)) := by
    rw [List.forall₂_map_left_iff, List.forall₂_map_right_iff, List.forall₂_same]
    exact fun a _ => a.has
  rw [alike] at small ⊢
  have read := Abi.decodeParams_encodeParams members [] (Nat.le_of_lt_succ small)
  rwa [List.append_nil, ← carries.dataTypes_eq] at read

end LogEntry.Carries

/-- From a log of an event with some arguments, the selected value is what the log tells of the first
argument with the selected name: the hash of one that is indexed and has no fixed size, and the value of
any other. There is none if no argument has that name. -/
theorem EventSource.selectValue?_carried {e : EventSource} {log : LogEntry}
    {args : List EventArgument} {name : String} (carries : log.Carries e.type args)
    (selects : e.select = some name) (small : log.data.length < 2 ^ 64) :
    e.selectValue? log = (args.find? (·.field.name == name)).map (·.told) := by
  have field := carries.field?_eq name
  cases first : args.find? (·.field.name == name) with
  | none =>
      rw [first] at field
      simp [selectValue?, selects, field]
  | some a =>
      rw [first] at field
      obtain ⟨i, position, there⟩ := carries.exists_position? first
      cases side : a.field.indexed with
      | true =>
          rw [side] at position there
          -- The first topic is that of the event itself.
          have topic : log.topics[i + 1]? = some a.topic := by
            simp [carries.topics_eq, there]
          simp [selectValue?, selects, field, a.typed, side, position, topic, a.ofTopic_topic side]
      | false =>
          rw [side] at position there
          have values := carries.decodeParams_eq small
          simp [selectValue?, selects, field, a.typed, side, position, values, there,
            EventArgument.told]

/-! ## A payment -/

namespace Payment

theorem lookup_string : Abi.lookup "string" = some .string := by
  decide +kernel

/-- The width of an octet. -/
def octet : Abi.Width :=
  ⟨1, Nat.le_refl 1, Nat.succ_le_succ (Nat.zero_le 31)⟩

theorem lookup_uint8 : Abi.lookup "uint8" = some (.uint octet) := by
  decide +kernel

theorem lookup_uint256 : Abi.lookup "uint256" = some .uint256 := by
  decide +kernel

/-- An indexed text, a text in the data, and two amounts of one name on both sides; the first of them is
given as more than a word holds. -/
def arguments : List EventArgument :=
  [{ field := ⟨"purpose", "string", true⟩
     type := .string
     given := .string "rent"
     value := .string "rent"
     hash := .ofNat 1
     typed := lookup_string
     coerced := rfl },
   { field := ⟨"memo", "string", false⟩
     type := .string
     given := .string "Zürich"
     value := .string "Zürich"
     hash := .ofNat 0
     typed := lookup_string
     coerced := rfl },
   { field := ⟨"amount", "uint8", false⟩
     type := .uint octet
     given := .uint (wordModulus + 7)
     value := .uint 7
     hash := .ofNat 0
     typed := lookup_uint8
     coerced := rfl },
   { field := ⟨"amount", "uint256", true⟩
     type := .uint256
     given := .uint 9
     value := .uint 9
     hash := .ofNat 0
     typed := lookup_uint256
     coerced := rfl }]

/-- The event with these arguments. -/
def type : NamedType :=
  ⟨"Paid", arguments.map (·.field)⟩

/-- Its log. -/
def log : LogEntry :=
  { address := "0x00000000000000000000000000000000000000aa"
    topics := type.topic :: (EventArgument.side arguments true).map (·.topic)
    data := Abi.encodeParams ((EventArgument.side arguments false).map (·.given))
    block := 1
    index := 0 }

theorem selectValue?_carried_payment :
    log.Carries type arguments ∧ log.data.length < 2 ^ 64 ∧
      { EventSource.ofType type with select := some "amount" }.selectValue? log = some (.uint 7) ∧
      { EventSource.ofType type with select := some "purpose" }.selectValue? log =
        some (.fixed (Word.ofNat 1).bytes) := by
  have carries : log.Carries type arguments := ⟨rfl, rfl, rfl⟩
  have small : log.data.length < 2 ^ 64 := by decide +kernel
  refine ⟨carries, small, ?_, ?_⟩
  · exact EventSource.selectValue?_carried
      (e := { EventSource.ofType type with select := some "amount" }) carries rfl small
  · exact EventSource.selectValue?_carried
      (e := { EventSource.ofType type with select := some "purpose" }) carries rfl small

end Payment

end TokenSchema
