import TokenSchema.Call
import TokenSchema.Proofs.Abi.Layout

/-!
# Arguments — what a call is built from

A template names types and sources; a context gives the texts. The call that is built carries either all
arguments of known types, in their order, or none:

* `CallContext.arguments_of_converted` and `CallContext.arguments_of_failed` say which;
* `Call.Consistent` says that the signature, the values and the bytes of a call belong together, and
  `CallTemplate.build_arguments` that every call is built so.

Since the values are read back from the bytes, the data of two calls of one template tells their
parameters apart (`CallTemplate.build_data_eq_iff`).
-/

namespace TokenSchema

open TokenSchema.Bytes

/-- The argument is in no call: its type is unknown, and it is neither the token nor the wallet. -/
def Argument.isUnknown (a : Argument) : Bool :=
  a.source != .tokenId && a.source != .ownerAddress && (Abi.lookup a.typeName).isNone

/-- The type of an argument, whatever its value; none for one of an unknown type. -/
def Argument.type? (a : Argument) : Option Abi.Ty :=
  match a.source with
  | .tokenId => some (if Abi.lookup a.typeName = some .bytes32 then .bytes32 else .uint256)
  | .ownerAddress => some .address
  | _ => Abi.lookup a.typeName

/-! ## Lists -/

section Lists

variable {α β ε : Type} {f : α → Except ε β} {xs : List α}

theorem forall₂_of_mapM_eq_ok {ys : List β} (mapped : xs.mapM f = .ok ys) :
    List.Forall₂ (fun x y => f x = .ok y) xs ys := by
  induction xs generalizing ys with
  | nil =>
      cases mapped
      exact .nil
  | cons x xs ih =>
      rw [List.mapM_cons] at mapped
      cases first : f x with
      | error e =>
          rw [first] at mapped
          cases mapped
      | ok y =>
          cases others : xs.mapM f with
          | error e =>
              rw [first, others] at mapped
              cases mapped
          | ok zs =>
              rw [first, others] at mapped
              cases mapped
              exact .cons first (ih others)

theorem exists_of_mapM_eq_error {e : ε} (mapped : xs.mapM f = .error e) :
    ∃ x ∈ xs, f x = .error e := by
  induction xs with
  | nil => cases mapped
  | cons x xs ih =>
      rw [List.mapM_cons] at mapped
      cases first : f x with
      | error e' =>
          rw [first] at mapped
          cases mapped
          exact ⟨x, List.mem_cons_self, first⟩
      | ok y =>
          cases others : xs.mapM f with
          | error e' =>
              rw [first, others] at mapped
              cases mapped
              obtain ⟨z, member, failed⟩ := ih others
              exact ⟨z, List.mem_cons_of_mem x member, failed⟩
          | ok zs =>
              rw [first, others] at mapped
              cases mapped

theorem mapM_congr {g : α → Except ε β} (same : ∀ x ∈ xs, f x = g x) : xs.mapM f = xs.mapM g := by
  induction xs with
  | nil => rfl
  | cons x xs ih =>
      rw [List.mapM_cons, List.mapM_cons, same x List.mem_cons_self,
        ih fun y member => same y (List.mem_cons_of_mem x member)]

theorem exists_of_forall₂ {R : α → β → Prop} {ys : List β} (each : List.Forall₂ R xs ys) :
    ∀ x ∈ xs, ∃ y, R x y := by
  induction each with
  | nil =>
      intro x member
      cases member
  | @cons x y _ _ one _ ih =>
      intro z member
      rcases List.mem_cons.1 member with rfl | rest
      · exact ⟨y, one⟩
      · exact ih z rest

end Lists

/-! ## One argument -/

/-- The value of a type for an argument, fitted to the type. -/
def Abi.Ty.fitArgument (t : Ty) (text : Option String) : Except EncodeError Value :=
  (t.ofArgument text).bind t.coerce

theorem Abi.Ty.has_of_fitArgument {t : Ty} {text : Option String} {v : Value}
    (h : t.fitArgument text = .ok v) : t.Has v := by
  unfold fitArgument at h
  cases read : t.ofArgument text with
  | error e =>
      rw [read] at h
      cases h
  | ok u =>
      rw [read] at h
      exact has_of_coerce h

namespace CallContext

variable (c : CallContext)

/-- An argument that is neither the token nor the wallet has the type it names. -/
theorem argument_of_typed {a : Argument} (notToken : a.source ≠ .tokenId)
    (notWallet : a.source ≠ .ownerAddress) :
    c.argument a =
      match Abi.lookup a.typeName with
      | none => .ok none
      | some t => (t.fitArgument (c.sourceText a.source)).map fun v => some (t, v) := by
  cases source : a.source with
  | tokenId => exact absurd source notToken
  | ownerAddress => exact absurd source notWallet
  | literal | reference | localValue | empty =>
      simp only [argument, source]
      cases Abi.lookup a.typeName with
      | none => rfl
      | some t =>
          simp only [Abi.Ty.fitArgument, bind, Except.bind, Except.map]
          cases t.ofArgument _ with
          | error e => rfl
          | ok v =>
              simp only
              cases t.coerce v <;> rfl

theorem argument_eq_none_iff (a : Argument) :
    c.argument a = .ok none ↔ a.isUnknown = true := by
  by_cases token : a.source = .tokenId
  · have given : c.argument a ≠ .ok none := by
      simp only [argument, token]
      split <;> simp
    simp [given, Argument.isUnknown, token]
  by_cases wallet : a.source = .ownerAddress
  · have given : c.argument a ≠ .ok none := by
      simp only [argument, wallet]
      split <;> simp
    simp [given, Argument.isUnknown, wallet]
  rw [c.argument_of_typed token wallet]
  cases known : Abi.lookup a.typeName with
  | none => simp [Argument.isUnknown, token, wallet, known]
  | some t =>
      simp only [Argument.isUnknown, known]
      cases t.fitArgument (c.sourceText a.source) with
      | error e => simp [Except.map]
      | ok v => simp [Except.map]

/-- An argument is given with a value of its type. -/
theorem type?_of_argument {a : Argument} {t : Abi.Ty} {v : Abi.Value}
    (h : c.argument a = .ok (some (t, v))) : a.type? = some t ∧ t.Has v := by
  by_cases token : a.source = .tokenId
  · simp only [argument, token] at h
    simp only [Argument.type?, token]
    split at h
    · rename_i word
      cases h
      exact ⟨by rw [if_pos word], .fixed (Word.ofNat c.tokenId).length_eq⟩
    · rename_i word
      cases h
      exact ⟨by rw [if_neg word], .uint (Nat.mod_lt _ Word.wordModulus_pos)⟩
  by_cases wallet : a.source = .ownerAddress
  · simp only [argument, wallet] at h
    simp only [Argument.type?, wallet]
    split at h
    · cases h
      exact ⟨rfl, .address _⟩
    · cases h
  have named : a.type? = Abi.lookup a.typeName := by
    unfold Argument.type?
    split
    · contradiction
    · contradiction
    · rfl
  rw [c.argument_of_typed token wallet] at h
  cases known : Abi.lookup a.typeName with
  | none =>
      simp only [known] at h
      cases h
  | some t' =>
      simp only [known] at h
      cases fitted : t'.fitArgument (c.sourceText a.source) with
      | error e =>
          rw [fitted] at h
          cases h
      | ok w =>
          rw [fitted] at h
          cases h
          exact ⟨named.trans known, Abi.Ty.has_of_fitArgument fitted⟩

/-! ## All arguments -/

variable {c}

theorem forall₂_filterMap {args : List Argument} {found : List (Option (Abi.Ty × Abi.Value))}
    (each : List.Forall₂ (fun a p => c.argument a = .ok p) args found) :
    List.Forall₂ (fun a p => c.argument a = .ok (some p)) (args.filter fun a => !a.isUnknown)
      (found.filterMap id) := by
  induction each with
  | nil => exact .nil
  | @cons a p args found one _ ih =>
      cases p with
      | none =>
          have unknown := (c.argument_eq_none_iff a).1 one
          simpa [unknown] using ih
      | some p =>
          have known : a.isUnknown = false := by
            rw [← Bool.not_eq_true, ← c.argument_eq_none_iff, one]
            simp
          simpa [known] using And.intro one ih

variable (c)

/-- All arguments are converted, or one of them fails. -/
theorem converted_iff_not_failed (args : List Argument) :
    (∀ a ∈ args, ∃ p, c.argument a = .ok p) ↔ ¬ ∃ a ∈ args, ∃ e, c.argument a = .error e := by
  simp only [not_exists, not_and]
  refine forall₂_congr fun a _ => ?_
  cases c.argument a with
  | error e => simp
  | ok p => simp

/-- One argument that cannot be converted takes all others with it. -/
theorem arguments_cases (args : List Argument) :
    (∃ a ∈ args, ∃ e, c.argument a = .error e) ∧ c.arguments args = [] ∨
    (∀ a ∈ args, ∃ p, c.argument a = .ok p) ∧
      List.Forall₂ (fun a p => c.argument a = .ok (some p)) (args.filter fun a => !a.isUnknown)
        (c.arguments args) := by
  -- Nothing is left of the arguments before the one that fails, so the whole list decides.
  cases mapped : args.mapM c.argument with
  | error e =>
      obtain ⟨a, member, failed⟩ := exists_of_mapM_eq_error mapped
      exact .inl ⟨⟨a, member, e, failed⟩, by simp only [arguments, mapped]⟩
  | ok found =>
      have each := forall₂_of_mapM_eq_ok mapped
      have kept := forall₂_filterMap each
      exact .inr ⟨exists_of_forall₂ each, by simpa only [arguments, mapped] using kept⟩

theorem arguments_of_converted {args : List Argument}
    (converted : ∀ a ∈ args, ∃ p, c.argument a = .ok p) :
    List.Forall₂ (fun a p => c.argument a = .ok (some p)) (args.filter fun a => !a.isUnknown)
      (c.arguments args) := by
  rcases c.arguments_cases args with ⟨failed, -⟩ | ⟨-, each⟩
  · exact absurd failed ((c.converted_iff_not_failed args).1 converted)
  · exact each

theorem arguments_of_failed {args : List Argument}
    (failed : ∃ a ∈ args, ∃ e, c.argument a = .error e) : c.arguments args = [] := by
  rcases c.arguments_cases args with ⟨-, none⟩ | ⟨converted, -⟩
  · exact none
  · exact absurd failed ((c.converted_iff_not_failed args).1 converted)

/-- Whatever comes of the arguments, every value belongs to the type beside it. -/
theorem forall₂_has_arguments (args : List Argument) :
    List.Forall₂ Abi.Ty.Has ((c.arguments args).map (·.1)) ((c.arguments args).map (·.2)) := by
  rcases c.arguments_cases args with ⟨-, none⟩ | ⟨-, each⟩
  · rw [none]
    exact .nil
  · generalize c.arguments args = found at each
    generalize args.filter (fun a => !a.isUnknown) = known at each
    induction each with
    | nil => exact .nil
    | cons one _ ih => exact .cons (c.type?_of_argument one).2 ih

/-- The types of converted arguments do not depend on the context. -/
theorem map_fst_arguments {args : List Argument}
    (converted : ∀ a ∈ args, ∃ p, c.argument a = .ok p) :
    (c.arguments args).map (·.1) = (args.filter fun a => !a.isUnknown).filterMap (·.type?) := by
  have each := c.arguments_of_converted converted
  generalize c.arguments args = found at each
  generalize args.filter (fun a => !a.isUnknown) = known at each
  induction each with
  | nil => rfl
  | cons one _ ih =>
      rw [List.filterMap_cons_some (c.type?_of_argument one).1, List.map_cons, ih]

end CallContext

/-! ## Calls -/

/-- The types of one width are found by their names. -/
theorem Abi.lookup_canonical_width : ∀ n : Fin 32,
    let w : Width := ⟨n + 1, Nat.le_add_left 1 n, n.isLt⟩
    ∀ t ∈ [Ty.uint w, .int w, .fixed w], lookup t.canonical = some t := by
  decide +kernel

/-- Every type is found by its name. -/
theorem Abi.lookup_canonical (t : Ty) : lookup t.canonical = some t := by
  have sized (w : Width) : ∀ t ∈ [Ty.uint w, .int w, .fixed w], lookup t.canonical = some t := by
    obtain ⟨octets, pos, le⟩ := w
    obtain ⟨n, rfl⟩ := Nat.exists_eq_add_of_le' pos
    exact lookup_canonical_width ⟨n, le⟩
  cases t with
  | address | bool | bytes | string => decide +kernel
  | uint w => exact sized w _ (by simp)
  | int w => exact sized w _ (by simp)
  | fixed w => exact sized w _ (by simp)

theorem Abi.length_selector (signature : String) : (selector signature).length = 4 := by
  simp [selector, (Keccak.hash _).length_eq]

/-- The parts of a call belong together: the types that its signature lists between parentheses, with commas between
them, each under a name by which it is found; its values, one to one; and its bytes, from which the values are read
back. -/
structure Call.Consistent (call : Call) (types : List Abi.Ty) : Prop where
  signature_eq : call.signature =
    call.method ++ "(" ++ String.intercalate "," (types.map Abi.Ty.canonical) ++ ")"
  named : ∀ t ∈ types, Abi.lookup t.canonical = some t
  coerced : List.Forall₂ (fun t v => t.coerce v = .ok v) types call.parameters
  data_eq : call.data = Abi.selector call.signature ++ Abi.encodeParams call.parameters
  decoded : (Abi.encodeParams call.parameters).length < 2 ^ 64 →
    Abi.decodeParams types (call.data.drop 4) = .ok call.parameters

theorem CallTemplate.consistent_build (f : CallTemplate) (c : CallContext) :
    (f.build c).Consistent ((c.arguments f.arguments).map (·.1)) := by
  have members := c.forall₂_has_arguments f.arguments
  refine ⟨rfl, fun t _ => Abi.lookup_canonical t, members.imp fun _ _ => Abi.Ty.Has.coerce_eq, rfl, ?_⟩
  intro small
  have skipped : (f.build c).data.drop 4 = Abi.encodeParams (f.build c).parameters ++ [] := by
    rw [List.append_nil]
    exact List.drop_left' (Abi.length_selector _)
  rw [skipped]
  exact Abi.decodeParams_encodeParams members [] (Nat.le_of_lt_succ small)

/-- A call carries all arguments of known types, in their order, or none at all, and its parts belong
together. -/
theorem CallTemplate.build_arguments (f : CallTemplate) (c : CallContext) :
    ∃ found : List (Abi.Ty × Abi.Value),
      (f.build c).Consistent (found.map (·.1)) ∧
      (f.build c).method = f.method ∧
      (f.build c).parameters = found.map (·.2) ∧
      ((∀ a ∈ f.arguments, ∃ p, c.argument a = .ok p) →
        List.Forall₂ (fun a p => c.argument a = .ok (some p))
          (f.arguments.filter fun a => !a.isUnknown) found) ∧
      ((∃ a ∈ f.arguments, ∃ e, c.argument a = .error e) →
        (f.build c).parameters = [] ∧ (f.build c).signature = f.method ++ "()") := by
  refine ⟨c.arguments f.arguments, f.consistent_build c, rfl, rfl, c.arguments_of_converted, ?_⟩
  intro failed
  have none := c.arguments_of_failed failed
  have bare : callSignature f.method [] = f.method ++ "()" := by
    simp [callSignature, String.append_assoc]
  refine ⟨by simp [build, none], ?_⟩
  rw [← bare]
  simp [build, none]

/-! ## Calls without the token -/

theorem CallTemplate.source_ne_tokenId {f : CallTemplate} (agnostic : f.tokenIdCount = 0) :
    ∀ a ∈ f.arguments, a.source ≠ .tokenId := by
  intro a member token
  have present : a ∈ f.arguments.filter (·.source == .tokenId) := by
    simp [member, token]
  rw [List.length_eq_zero_iff.1 agnostic] at present
  cases present

/-- Where the token is no argument, the values do not depend on it. -/
theorem CallTemplate.arguments_eq {f : CallTemplate} (agnostic : f.tokenIdCount = 0)
    (t₁ t₂ : Nat) (wallet : String) (references : Std.TreeMap String String) :
    (CallContext.mk t₁ wallet references).arguments f.arguments =
      (CallContext.mk t₂ wallet references).arguments f.arguments := by
  have each : ∀ a ∈ f.arguments, (CallContext.mk t₁ wallet references).argument a =
      (CallContext.mk t₂ wallet references).argument a := by
    intro a member
    have other := source_ne_tokenId agnostic a member
    cases source : a.source with
    | tokenId => exact absurd source other
    | _ => simp only [CallContext.argument, source, CallContext.sourceText]
  unfold CallContext.arguments
  rw [mapM_congr each]

/-! ## Telling calls apart -/

/-- Bytes of arguments are there as soon as there is an argument. -/
theorem Abi.length_le_encodeParams (values : List Value) :
    32 * values.length ≤ (encodeParams values).length := by
  have head := length_encodeFrom_head values (32 * values.length)
  simp only [encodeParams, List.length_append, head]
  exact Nat.le_add_right _ _

namespace CallTemplate

variable (f : CallTemplate) {c₁ c₂ : CallContext}

theorem length_build_data (c : CallContext) :
    (f.build c).data.length = 4 + (Abi.encodeParams (f.build c).parameters).length := by
  rw [(f.consistent_build c).data_eq, List.length_append, Abi.length_selector]

theorem decodeParams_build {c : CallContext} (small : (f.build c).data.length < 2 ^ 64) :
    Abi.decodeParams ((c.arguments f.arguments).map (·.1)) ((f.build c).data.drop 4) =
      .ok (f.build c).parameters := by
  have length := f.length_build_data c
  exact (f.consistent_build c).decoded (by omega)

/-- The data of a call without parameters ends after the selector. -/
theorem parameters_of_data_eq_of_nil (same : (f.build c₁).data = (f.build c₂).data)
    (none : (f.build c₁).parameters = []) : (f.build c₂).parameters = [] := by
  have length := congrArg List.length same
  rw [f.length_build_data, f.length_build_data, none] at length
  have bound := Abi.length_le_encodeParams (f.build c₂).parameters
  have empty : (Abi.encodeParams []).length = 0 := rfl
  exact List.length_eq_zero_iff.1 (by omega)

/-- An argument that cannot be converted in one context is one of the parameters in another, where all
can be converted. -/
theorem parameters_ne_nil (failed : ∃ a ∈ f.arguments, ∃ e, c₁.argument a = .error e)
    (converted : ∀ a ∈ f.arguments, ∃ p, c₂.argument a = .ok p) :
    (f.build c₂).parameters ≠ [] := by
  obtain ⟨a, member, e, refused⟩ := failed
  have known : a.isUnknown = false := by
    rw [← Bool.not_eq_true, ← c₁.argument_eq_none_iff, refused]
    simp
  have present : a ∈ f.arguments.filter (fun a => !a.isUnknown) := by
    simp [member, known]
  intro none
  have empty : c₂.arguments f.arguments = [] := List.map_eq_nil_iff.1 none
  have each := c₂.arguments_of_converted converted
  rw [empty, List.forall₂_nil_right_iff] at each
  rw [each] at present
  cases present

theorem build_ne_of_failed (failed : ∃ a ∈ f.arguments, ∃ e, c₁.argument a = .error e)
    (converted : ∀ a ∈ f.arguments, ∃ p, c₂.argument a = .ok p) :
    (f.build c₁).data ≠ (f.build c₂).data ∧ (f.build c₁).parameters ≠ (f.build c₂).parameters := by
  have none : (f.build c₁).parameters = [] := by
    simp [build, c₁.arguments_of_failed failed]
  have present := f.parameters_ne_nil failed converted
  refine ⟨?_, ?_⟩
  · intro same
    exact present (f.parameters_of_data_eq_of_nil same none)
  · intro same
    exact present (same.symm.trans none)

/-- Converted arguments have the same types in all contexts, so they can be read back from the data. -/
theorem build_data_eq_iff_of_converted (converted₁ : ∀ a ∈ f.arguments, ∃ p, c₁.argument a = .ok p)
    (converted₂ : ∀ a ∈ f.arguments, ∃ p, c₂.argument a = .ok p)
    (small₁ : (f.build c₁).data.length < 2 ^ 64) (small₂ : (f.build c₂).data.length < 2 ^ 64) :
    (f.build c₁).data = (f.build c₂).data ↔ (f.build c₁).parameters = (f.build c₂).parameters := by
  have types : (c₁.arguments f.arguments).map (·.1) = (c₂.arguments f.arguments).map (·.1) := by
    rw [c₁.map_fst_arguments converted₁, c₂.map_fst_arguments converted₂]
  refine ⟨?_, ?_⟩
  · intro same
    have read₁ := f.decodeParams_build small₁
    have read₂ := f.decodeParams_build small₂
    rw [same, types, read₂] at read₁
    exact (Except.ok.inj read₁).symm
  · intro same
    have signature : (f.build c₁).signature = (f.build c₂).signature :=
      congrArg (callSignature f.method) types
    calc
      (f.build c₁).data
          = Abi.selector (f.build c₁).signature ++ Abi.encodeParams (f.build c₁).parameters :=
            (f.consistent_build c₁).data_eq
      _ = Abi.selector (f.build c₂).signature ++ Abi.encodeParams (f.build c₂).parameters := by
            rw [signature, same]
      _ = (f.build c₂).data := (f.consistent_build c₂).data_eq.symm

/-- Two calls of one template have the same data exactly when they have the same parameters. -/
theorem build_data_eq_iff (small₁ : (f.build c₁).data.length < 2 ^ 64)
    (small₂ : (f.build c₂).data.length < 2 ^ 64) :
    (f.build c₁).data = (f.build c₂).data ↔ (f.build c₁).parameters = (f.build c₂).parameters := by
  rcases c₁.arguments_cases f.arguments with ⟨failed₁, none₁⟩ | ⟨converted₁, -⟩
  · rcases c₂.arguments_cases f.arguments with ⟨-, none₂⟩ | ⟨converted₂, -⟩
    · simp [build, none₁, none₂]
    · obtain ⟨data, parameters⟩ := f.build_ne_of_failed failed₁ converted₂
      exact iff_of_false data parameters
  · rcases c₂.arguments_cases f.arguments with ⟨failed₂, -⟩ | ⟨converted₂, -⟩
    · obtain ⟨data, parameters⟩ := f.build_ne_of_failed failed₂ converted₁
      exact iff_of_false data.symm parameters.symm
    · exact f.build_data_eq_iff_of_converted converted₁ converted₂ small₁ small₂

end CallTemplate

end TokenSchema
