import TokenSchema.Attribute.Text
import TokenSchema.Proofs.Calendar.Gregorian
import TokenSchema.Proofs.Text.Blank
import TokenSchema.Proofs.Text.Digits
import TokenSchema.Proofs.Text.Place

/-!
# Time texts — which texts are times, and that fitting a text to a time settles it

A text is a time if it has fourteen digits and a zone behind them (`Calendar.IsTime`). It can be looked at by bytes and
cut behind the digits and behind the sign of the zone, and no cut misses the text or a character
(`Calendar.timeByPlaces_eq`). The seconds of the years zero to 9999 are written as such texts
(`Calendar.exists_generalizedTime`). A written time is no number, since its zone has a sign, so fitting a text to the
form of a time a second time changes nothing (`Attribute.adapt_adapt_of_time`).
-/

namespace TokenSchema

namespace Calendar

open TokenSchema.Text

/-! ## The form of a time -/

/-- A zone: `Z`, or a sign and four digits. -/
def IsZone (cs : List Char) : Prop :=
  cs = ['Z'] ∨ ∃ sign offset, cs = sign :: offset ∧ (sign = '+' ∨ sign = '-') ∧ offset.length = 4 ∧
    ∀ c ∈ offset, isDigit c = true

/-- A time: fourteen digits and a zone. -/
def IsTime (cs : List Char) : Prop :=
  ∃ digits zone, cs = digits ++ zone ∧ digits.length = 14 ∧ (∀ c ∈ digits, isDigit c = true) ∧ IsZone zone

theorem isZone_cons {sign : Char} {offset : List Char} (other : sign :: offset ≠ ['Z']) :
    isZone (sign :: offset) = ((sign == '+' || sign == '-') && offset.length == 4 && offset.all isDigit) := by
  unfold isZone
  split
  · contradiction
  · rename_i same
    obtain ⟨rfl, rfl⟩ := List.cons.inj same
    rfl
  · contradiction

theorem isZone_iff {cs : List Char} : isZone cs = true ↔ IsZone cs := by
  by_cases utc : cs = ['Z']
  · rw [utc]
    exact ⟨fun _ => .inl rfl, fun _ => rfl⟩
  cases cs with
  | nil =>
      refine ⟨nofun, ?_⟩
      rintro (utc | ⟨_, _, same, -⟩)
      · cases utc
      · cases same
  | cons sign offset =>
      simp only [isZone_cons utc, Bool.and_eq_true, Bool.or_eq_true, beq_iff_eq, List.all_eq_true]
      constructor
      · rintro ⟨⟨signed, count⟩, digits⟩
        exact .inr ⟨sign, offset, rfl, signed, count, digits⟩
      · rintro (isUtc | ⟨sign', offset', same, signed, count, digits⟩)
        · exact absurd isUtc utc
        · obtain ⟨rfl, rfl⟩ := List.cons.inj same
          exact ⟨⟨signed, count⟩, digits⟩

theorem isGeneralizedTime_iff {s : String} : isGeneralizedTime s = true ↔ IsTime (trimChars s.toList) := by
  simp only [isGeneralizedTime, Bool.and_eq_true, beq_iff_eq, List.all_eq_true, isZone_iff]
  constructor
  · rintro ⟨⟨count, digits⟩, zone⟩
    exact ⟨_, _, (List.take_append_drop 14 _).symm, count, digits, zone⟩
  · rintro ⟨digits, zone, whole, count, numeric, isZone⟩
    rw [whole, List.take_left' count, List.drop_left' count]
    exact ⟨⟨count, numeric⟩, isZone⟩

/-! ## Places -/

/-- A byte that is a decimal digit. -/
def isDigitByte (b : UInt8) : Bool :=
  0x30 ≤ b && b ≤ 0x39

/-- Whether a text is a zone, looked at by bytes and cut behind its sign. -/
def zoneByPlaces (zone : String) : Except CutFault Bool :=
  if zone = "Z" then .ok true
  else if Utf8.size zone = 5 ∧ (zone.toList.head? = some '+' ∨ zone.toList.head? = some '-') then
    (cut zone 1 (Utf8.size zone)).map fun offset => (Utf8.encode offset).all isDigitByte
  else .ok false

/-- Whether a text is a time, looked at by bytes and cut behind fourteen of them, which are digits. -/
def timeByPlaces (s : String) : Except CutFault Bool :=
  let value := trim s
  if 14 ≤ Utf8.size value ∧ ((Utf8.encode value).take 14).all isDigitByte = true then
    (cut value 14 (Utf8.size value)).bind zoneByPlaces
  else .ok false

variable {c : Char} {cs : List Char}

theorem isDigitByte_iff {b : UInt8} : isDigitByte b = true ↔ 48 ≤ b.toNat ∧ b.toNat ≤ 57 := by
  simp only [isDigitByte, Bool.and_eq_true, decide_eq_true_eq, UInt8.le_iff_toNat_le]
  rfl

/-- Digits have one byte each, and what begins with such a byte is a digit. -/
theorem utf8EncodeChar_digit_cases (c : Char) :
    (isDigit c = true ∧ ∃ b, String.utf8EncodeChar c = [b] ∧ isDigitByte b = true) ∨
      isDigit c = false ∧ ∃ b rest, String.utf8EncodeChar c = b :: rest ∧ isDigitByte b = false := by
  rcases Utf8.utf8EncodeChar_cases c with ⟨small, bytes⟩ | ⟨large, lead, rest, bytes, high⟩
  · have number : (UInt8.ofNat c.toNat).toNat = c.toNat := by
      rw [UInt8.toNat_ofNat', Nat.mod_eq_of_lt (by omega)]
    have same : isDigitByte (UInt8.ofNat c.toNat) = isDigit c := by
      rw [Bool.eq_iff_iff, isDigitByte_iff, isDigit_iff, number]
    cases digit : isDigit c with
    | true => exact .inl ⟨rfl, _, bytes, same.trans digit⟩
    | false => exact .inr ⟨rfl, _, [], bytes, same.trans digit⟩
  · refine .inr ⟨?_, lead, rest, bytes, ?_⟩
    · rw [← Bool.not_eq_true, isDigit_iff]
      omega
    · rw [← Bool.not_eq_true, isDigitByte_iff]
      omega

theorem all_isDigitByte (cs : List Char) :
    (Utf8.encode (String.ofList cs)).all isDigitByte = cs.all isDigit := by
  rw [Utf8.encode_ofList, List.all_flatMap]
  congr
  funext c
  rcases utf8EncodeChar_digit_cases c with ⟨digit, b, bytes, numeric⟩ | ⟨other, b, rest, bytes, foreign⟩
  · rw [bytes, List.all_cons, numeric, digit]
    rfl
  · rw [bytes, List.all_cons, foreign, other]
    rfl

/-- So many bytes of digits at the front are so many digits at the front. -/
theorem digitBytes_iff (count : Nat) (cs : List Char) :
    count ≤ Utf8.size (String.ofList cs) ∧
        ((Utf8.encode (String.ofList cs)).take count).all isDigitByte = true ↔
      ∃ digits rest, cs = digits ++ rest ∧ digits.length = count ∧ ∀ c ∈ digits, isDigit c = true := by
  induction count generalizing cs with
  | zero => exact ⟨fun _ => ⟨[], cs, rfl, rfl, nofun⟩, fun _ => ⟨Nat.zero_le _, rfl⟩⟩
  | succ count ih =>
      cases cs with
      | nil =>
          refine ⟨fun front => absurd front.1 (Nat.not_succ_le_zero count), ?_⟩
          rintro ⟨digits, rest, whole, more, -⟩
          rw [(List.append_eq_nil_iff.1 whole.symm).1] at more
          cases more
      | cons c cs =>
          have parts : Utf8.encode (String.ofList (c :: cs)) =
              String.utf8EncodeChar c ++ Utf8.encode (String.ofList cs) := by
            rw [Utf8.encode_ofList, Utf8.encode_ofList, List.flatMap_cons]
          rw [← Utf8.length_encode_eq, parts]
          rcases utf8EncodeChar_digit_cases c with ⟨digit, b, bytes, numeric⟩ | ⟨other, b, more, bytes, foreign⟩
          · -- A digit is one byte, and the others are behind it.
            rw [bytes, List.singleton_append, List.length_cons, List.take_succ_cons, List.all_cons, numeric,
              Bool.true_and, Nat.succ_le_succ_iff, Utf8.length_encode_eq, ih]
            constructor
            · rintro ⟨digits, rest, rfl, rfl, numerics⟩
              exact ⟨c :: digits, rest, rfl, rfl, List.forall_mem_cons.2 ⟨digit, numerics⟩⟩
            · rintro ⟨digits, rest, whole, number, numerics⟩
              cases digits with
              | nil => cases number
              | cons d digits =>
                  exact ⟨digits, rest, (List.cons.inj whole).2, Nat.succ.inj number,
                    (List.forall_mem_cons.1 numerics).2⟩
          · -- Neither the first byte nor the first character is a digit.
            rw [bytes, List.cons_append, List.take_succ_cons, List.all_cons, foreign]
            refine ⟨fun front => (Bool.false_ne_true front.2).elim, ?_⟩
            rintro ⟨digits, rest, whole, number, numerics⟩
            cases digits with
            | nil => cases number
            | cons d digits =>
                obtain rfl := (List.cons.inj whole).1
                rw [(List.forall_mem_cons.1 numerics).1] at other
                cases other

/-! ## Cuts -/

theorem size_of_digits (digits : ∀ c ∈ cs, isDigit c = true) : Utf8.size (String.ofList cs) = cs.length := by
  have ascii : ∀ c ∈ (String.ofList cs).toList, c.toNat < 128 := by
    rw [String.toList_ofList]
    exact fun c member => ascii_of_isDigit (digits c member)
  rw [← Utf8.length_encode_eq, Utf8.length_encode ascii, String.toList_ofList]

/-- A text is cut in two behind the size of its front. -/
theorem cut_rest (front rest : List Char) :
    cut (String.ofList (front ++ rest)) (Utf8.size (String.ofList front))
      (Utf8.size (String.ofList (front ++ rest))) = .ok (String.ofList rest) := by
  have parts : String.ofList (front ++ rest) = String.ofList front ++ (String.ofList rest ++ "") := by
    rw [String.ofList_append, String.append_empty]
  rw [Utf8.size_ofList_append, parts]
  exact cut_append _ _ _

theorem zoneByPlaces_eq (cs : List Char) : zoneByPlaces (String.ofList cs) = .ok (isZone cs) := by
  have utc : String.ofList cs = "Z" ↔ cs = ['Z'] := by
    rw [← String.toList_inj, String.toList_ofList]
    rfl
  simp only [zoneByPlaces, utc, String.toList_ofList]
  by_cases isUtc : cs = ['Z']
  · rw [if_pos isUtc, isUtc]
    rfl
  rw [if_neg isUtc]
  cases cs with
  | nil => rfl
  | cons sign offset =>
      simp only [List.head?_cons, Option.some.injEq]
      by_cases signed : sign = '+' ∨ sign = '-'
      · have isSign : (sign == '+' || sign == '-') = true := by
          simpa using signed
        have place : Utf8.size (String.ofList [sign]) = 1 := by
          rcases signed with rfl | rfl <;> rfl
        have size : Utf8.size (String.ofList (sign :: offset)) = 1 + Utf8.size (String.ofList offset) := by
          rw [← place, ← Utf8.size_ofList_append]
          rfl
        have piece := cut_rest [sign] offset
        rw [place, List.singleton_append] at piece
        rw [isZone_cons isUtc, isSign, Bool.true_and, piece, Except.map, all_isDigitByte, size]
        -- Four bytes are four characters if all are digits, and it does not matter how many there are if not.
        cases digits : offset.all isDigit with
        | false => simp
        | true =>
            rw [size_of_digits (List.all_eq_true.1 digits), Bool.and_true]
            by_cases four : offset.length = 4
            · rw [four]
              exact if_pos ⟨rfl, signed⟩
            · rw [if_neg (by omega), beq_eq_false_iff_ne.2 four]
      · have noSign : (sign == '+' || sign == '-') = false := by
          simpa using signed
        rw [isZone_cons isUtc, noSign, if_neg (mt And.right signed)]
        rfl

theorem timeByPlaces_eq (s : String) : timeByPlaces s = .ok (isGeneralizedTime s) := by
  have front := digitBytes_iff 14 (trimChars s.toList)
  rw [← trim] at front
  by_cases begins : ∃ digits rest, trimChars s.toList = digits ++ rest ∧ digits.length = 14 ∧
      ∀ c ∈ digits, isDigit c = true
  · rw [timeByPlaces, if_pos (front.2 begins)]
    obtain ⟨digits, zone, whole, count, numeric⟩ := begins
    have piece := cut_rest digits zone
    rw [size_of_digits numeric, count, ← whole, ← trim] at piece
    have all : digits.all isDigit = true := List.all_eq_true.2 numeric
    rw [piece, Except.bind, zoneByPlaces_eq, isGeneralizedTime, whole, List.take_left' count, List.drop_left' count,
      count, all]
    rfl
  · rw [timeByPlaces, if_neg (mt front.1 begins)]
    cases time : isGeneralizedTime s with
    | false => rfl
    | true =>
        obtain ⟨digits, zone, whole, count, numeric, -⟩ := isGeneralizedTime_iff.1 time
        exact absurd ⟨digits, zone, whole, count, numeric⟩ begins

/-! ## Written times -/

variable {epoch : Int} {text : String}

/-- The years -9999 to 9999 have written forms. -/
theorem isSome_generalizedTime_iff :
    (generalizedTime epoch).isSome = true ↔
      -9999 ≤ (dateOfDay (epoch / 86400)).year ∧ (dateOfDay (epoch / 86400)).year ≤ 9999 := by
  have early : (dateOfDay (epoch / 86400)).year ≤ -10000 ↔ epoch / 86400 ≤ -4371588 :=
    year_le_iff (epoch / 86400) (by decide) (by decide)
  have late : (dateOfDay (epoch / 86400)).year ≤ 9999 ↔ epoch / 86400 ≤ 2932896 :=
    year_le_iff (epoch / 86400) (by decide) (by decide)
  have first : -9999 ≤ (dateOfDay (epoch / 86400)).year ↔ -4371588 < epoch / 86400 := by omega
  rw [first, late]
  unfold generalizedTime earliest latest
  split
  · rename_i written
    refine ⟨fun _ => by omega, fun _ => rfl⟩
  · refine ⟨nofun, fun _ => by omega⟩

theorem monthDays_le (leap : Bool) (month : Nat) : monthDays leap month ≤ 31 := by
  unfold monthDays
  split
  · split <;> decide
  all_goals decide

/-- The numbers behind the year of a time: month, day, hour, minute and second. -/
def clock (epoch : Int) : List Nat :=
  let date := dateOfDay (epoch / 86400)
  let second := (epoch % 86400).toNat
  [date.month, date.day, second / 3600, second / 60 % 60, second % 60]

/-- Numbers of two digits, one after the other. -/
def pairs (ns : List Nat) : List Char :=
  ns.flatMap fun n => (decimalPadded 2 n).toList

theorem isDigit_of_mem_pairs {ns : List Nat} : ∀ c ∈ pairs ns, isDigit c = true := by
  intro c member
  obtain ⟨n, -, inside⟩ := List.mem_flatMap.1 member
  exact isDigit_of_mem_decimalPadded inside

theorem length_pairs {ns : List Nat} (small : ∀ n ∈ ns, n < 100) : (pairs ns).length = 2 * ns.length := by
  induction ns with
  | nil => rfl
  | cons n ns ih =>
      obtain ⟨first, others⟩ := List.forall_mem_cons.1 small
      have two : (decimalPadded 2 n).toList.length = 2 := length_decimalPadded (by decide) first
      rw [pairs, List.flatMap_cons, List.length_append, two, ← pairs, ih others, List.length_cons]
      omega

/-- The calendar and the clock have no number of three digits. -/
theorem lt_of_mem_clock (epoch : Int) : ∀ n ∈ clock epoch, n < 100 := by
  have valid := isValid_dateOfDay (epoch / 86400)
  have month := valid.month.2
  have day := Nat.le_trans valid.day.2 (monthDays_le _ _)
  have second : (epoch % 86400).toNat < 86400 := by omega
  simp only [clock, List.forall_mem_cons]
  exact ⟨by omega, by omega, by omega, by omega, by omega, nofun⟩

theorem toList_generalizedTime (written : generalizedTime epoch = some text) :
    text.toList = (yearText (dateOfDay (epoch / 86400)).year).toList ++ (pairs (clock epoch) ++ "+0000".toList) := by
  simp only [generalizedTime] at written
  split at written
  · rw [← Option.some.inj written]
    simp only [String.toList_append, List.append_assoc, pairs, clock, List.flatMap_cons, List.flatMap_nil,
      List.nil_append]
  · cases written

/-- The time of a year from zero to 9999 has fourteen digits before its zone. -/
theorem exists_generalizedTime (first : 0 ≤ (dateOfDay (epoch / 86400)).year)
    (last : (dateOfDay (epoch / 86400)).year ≤ 9999) :
    ∃ text, generalizedTime epoch = some text ∧ isGeneralizedTime text = true := by
  obtain ⟨text, written⟩ := Option.isSome_iff_exists.1 (isSome_generalizedTime_iff.2 ⟨by omega, last⟩)
  refine ⟨text, written, isGeneralizedTime_iff.2 ?_⟩
  have whole := toList_generalizedTime written
  have year : yearText (dateOfDay (epoch / 86400)).year =
      decimalPadded 4 (dateOfDay (epoch / 86400)).year.natAbs := by
    rw [yearText, if_neg (by omega), String.empty_append]
  have four : (decimalPadded 4 (dateOfDay (epoch / 86400)).year.natAbs).toList.length = 4 :=
    length_decimalPadded (by decide) (by omega)
  rw [year, ← List.append_assoc] at whole
  have digits : ∀ c ∈ (decimalPadded 4 (dateOfDay (epoch / 86400)).year.natAbs).toList ++ pairs (clock epoch),
      isDigit c = true :=
    List.forall_mem_append.2 ⟨fun _ => isDigit_of_mem_decimalPadded, isDigit_of_mem_pairs⟩
  have zone : "+0000".toList.all (fun c => !isBlank c) = true := by decide
  have noBlank : ∀ c ∈ text.toList, isBlank c = false := by
    rw [whole, List.forall_mem_append]
    exact ⟨fun c member => isBlank_of_isDigit (digits c member),
      fun c member => by simpa using List.all_eq_true.1 zone c member⟩
  have utc : isZone "+0000".toList = true := by decide
  refine ⟨_, _, (trimChars_of_noBlank noBlank).trans whole, ?_, digits, isZone_iff.1 utc⟩
  rw [List.length_append, four, length_pairs (lt_of_mem_clock epoch)]
  rfl

/-- A written time is no number, for a sign stands in it behind other characters. -/
theorem int64?_generalizedTime (written : generalizedTime epoch = some text) : int64? text = none := by
  cases read : int64? text with
  | none => rfl
  | some z =>
      have whole := toList_generalizedTime written
      have sign : '+' ∈ text.toList.tail := by
        have nonempty : (yearText (dateOfDay (epoch / 86400)).year).toList ++ pairs (clock epoch) ≠ [] := by
          refine List.append_ne_nil_of_right_ne_nil _ (List.length_pos_iff.1 ?_)
          rw [length_pairs (lt_of_mem_clock epoch)]
          exact Nat.zero_lt_succ _
        rw [whole, ← List.append_assoc, List.tail_append_of_ne_nil nonempty]
        exact List.mem_append_right _ (by decide)
      have digit := isDigit_of_mem_tail read '+' sign
      cases digit

end Calendar

/-! ## Fitting -/

namespace Attribute

variable {a : Attribute}

theorem adapt_of_time (time : a.form = .generalizedTime) (data : String) :
    a.adapt data =
      if Calendar.isGeneralizedTime data then data
      else ((Text.int64? data).bind Calendar.generalizedTime).getD data := by
  simp only [adapt, time]

/-- A text that is no number of seconds with a written time is left as it is. -/
theorem adapt_of_unwritten (time : a.form = .generalizedTime) {data : String}
    (unwritten : (Text.int64? data).bind Calendar.generalizedTime = none) : a.adapt data = data := by
  rw [adapt_of_time time, unwritten]
  exact ite_self data

theorem adapt_adapt (time : a.form = .generalizedTime) (data : String) : a.adapt (a.adapt data) = a.adapt data := by
  cases written : (Text.int64? data).bind Calendar.generalizedTime with
  | none => rw [adapt_of_unwritten time written, adapt_of_unwritten time written]
  | some text =>
      by_cases isTime : Calendar.isGeneralizedTime data = true
      · have same : a.adapt data = data := by rw [adapt_of_time time, if_pos isTime]
        rw [same, same]
      · obtain ⟨epoch, -, found⟩ := Option.bind_eq_some_iff.1 written
        have fitted : a.adapt data = text := by
          rw [adapt_of_time time, if_neg isTime, written]
          rfl
        have noNumber : (Text.int64? text).bind Calendar.generalizedTime = none := by
          rw [Calendar.int64?_generalizedTime found]
          rfl
        rw [fitted, adapt_of_unwritten time noNumber]

/-- Fitting a text to the form of a time settles it. The times of the years zero to 9999 are written as times, and what
is a time is told by its form, without a cut that misses the text or a character. -/
theorem adapt_adapt_of_time (time : a.form = .generalizedTime) :
    (∀ data, a.adapt (a.adapt data) = a.adapt data) ∧
      (∀ epoch : Int, 0 ≤ (Calendar.dateOfDay (epoch / 86400)).year →
        (Calendar.dateOfDay (epoch / 86400)).year ≤ 9999 →
          ∃ text, Calendar.generalizedTime epoch = some text ∧ Calendar.isGeneralizedTime text = true) ∧
      ∀ s, (Calendar.isGeneralizedTime s = true ↔ Calendar.IsTime (Text.trimChars s.toList)) ∧
        Calendar.timeByPlaces s = .ok (Calendar.isGeneralizedTime s) :=
  ⟨adapt_adapt time, fun _ => Calendar.exists_generalizedTime, fun s =>
    ⟨Calendar.isGeneralizedTime_iff, Calendar.timeByPlaces_eq s⟩⟩

end Attribute

namespace Expiry

/-- An attribute that is a time. -/
def expiry : Attribute :=
  { Attribute.ofName "expiry" with form := .generalizedTime }

/-- A number of seconds, the time that it is, and the first second of the year zero. -/
theorem adapt_adapt_of_time_expiry :
    expiry.form = .generalizedTime ∧ expiry.adapt "1700000000" = "20231114221320+0000" ∧
      expiry.adapt "20231114221320+0000" = "20231114221320+0000" ∧
      (Calendar.dateOfDay (-62167219200 / 86400)).year = 0 ∧
      ∃ text, Calendar.generalizedTime (-62167219200) = some text ∧ Calendar.isGeneralizedTime text = true := by
  have fitted : expiry.adapt "1700000000" = "20231114221320+0000" := by decide +kernel
  have year : (Calendar.dateOfDay (-62167219200 / 86400)).year = 0 := by decide +kernel
  obtain ⟨again, written, -⟩ := Attribute.adapt_adapt_of_time (a := expiry) rfl
  have settled := again "1700000000"
  rw [fitted] at settled
  exact ⟨rfl, fitted, settled, year, written _ (Int.le_of_eq year.symm) (by rw [year]; decide)⟩

end Expiry

end TokenSchema
