import Mathlib.Data.List.Basic
import TokenSchema.Contract

/-!
# Deployments — what a contract holds after any additions

A text stands for a deployment unless it is blank, and a contract holds the deployments of all the texts that were
added to it, in the order in which each came first. Adding one more text keeps this (`Lists.add`), so it holds after
any number of them (`lists_declare`). The deployment of the first text is the contract's first, and an address is on a
chain if one of the texts for that chain, cut free of blanks, is the same but for its case (`deployments_declare`).
-/

namespace TokenSchema

/-- The deployment that a text stands for; a blank one stands for none. -/
def Deployment.ofText? (chainId : Nat) (text : String) : Option Deployment :=
  if Text.trim text = "" then none else some (.ofAddress chainId (Text.trim text))

theorem Deployment.ofText?_eq_some_iff {chainId : Nat} {text : String} {d : Deployment} :
    ofText? chainId text = some d ↔
      Text.trim text ≠ "" ∧ d = ⟨chainId, Text.lowercase (Text.trim text)⟩ := by
  unfold ofText?
  split
  · rename_i blank
    exact iff_of_false nofun fun both => both.1 blank
  · rename_i filled
    rw [Option.some_inj, eq_comm]
    exact (and_iff_right filled).symm

namespace Contract

/-! ## Additions -/

/-- A new contract to which texts are added, each for a chain. -/
def declare (interface : Option String) (entries : List (Nat × String)) : Contract :=
  entries.foldl (fun c entry => c.add entry.1 entry.2) (.empty interface)

/-- The deployments that the texts stand for, in their order. -/
def declared (entries : List (Nat × String)) : List Deployment :=
  entries.filterMap fun entry => Deployment.ofText? entry.1 entry.2

/-- A text adds the deployment that it stands for, unless this is there already. -/
theorem add_eq (c : Contract) (chainId : Nat) (text : String) :
    c.add chainId text =
      match Deployment.ofText? chainId text with
      | none => c
      | some d => if d ∈ c.deployments then c else { c with deployments := c.deployments ++ [d] } := by
  by_cases blank : Text.trim text = ""
  · simp only [add, Deployment.ofText?, if_pos blank]
  · simp only [add, Deployment.ofText?, if_neg blank]

/-- A text adds nothing exactly if it is blank or its deployment is there already. -/
theorem add_eq_self_iff (c : Contract) (chainId : Nat) (text : String) :
    c.add chainId text = c ↔
      Text.trim text = "" ∨ ⟨chainId, Text.lowercase (Text.trim text)⟩ ∈ c.deployments := by
  by_cases blank : Text.trim text = ""
  · have none : Deployment.ofText? chainId text = none := if_pos blank
    rw [add_eq, none]
    exact iff_of_true rfl (.inl blank)
  · have stands : Deployment.ofText? chainId text = some ⟨chainId, Text.lowercase (Text.trim text)⟩ :=
      Deployment.ofText?_eq_some_iff.2 ⟨blank, rfl⟩
    rw [add_eq, stands, or_iff_right blank]
    simp only [ite_eq_left_iff]
    constructor
    · intro same
      by_contra missing
      exact List.cons_ne_nil _ _ (List.append_right_eq_self.1 (congrArg deployments (same missing)))
    · intro there missing
      exact absurd there missing

/-! ## What is listed -/

/-- Deployments are listed if there are just these, each where it came first. -/
structure Lists (listed asked : List Deployment) : Prop where
  mem_iff : ∀ d, d ∈ listed ↔ d ∈ asked
  ordered : listed.Pairwise fun d e => asked.idxOf d < asked.idxOf e
  head_eq : listed.head? = asked.head?

namespace Lists

variable {listed asked : List Deployment}

theorem nodup (lists : Lists listed asked) : listed.Nodup := by
  refine lists.ordered.imp ?_
  rintro d e before rfl
  exact Nat.lt_irrefl _ before

/-- What comes behind does not change where something came first. -/
theorem ordered_append (lists : Lists listed asked) (d : Deployment) :
    listed.Pairwise fun x y => (asked ++ [d]).idxOf x < (asked ++ [d]).idxOf y := by
  refine lists.ordered.imp_of_mem fun {x y} memX memY before => ?_
  rwa [List.idxOf_append_of_mem ((lists.mem_iff x).1 memX), List.idxOf_append_of_mem ((lists.mem_iff y).1 memY)]

theorem known (lists : Lists listed asked) {d : Deployment} (there : d ∈ listed) : Lists listed (asked ++ [d]) where
  mem_iff x := by
    rw [List.mem_append, List.mem_singleton, ← lists.mem_iff]
    refine ⟨.inl, ?_⟩
    rintro (other | rfl)
    · exact other
    · exact there
  ordered := lists.ordered_append d
  head_eq := by
    rw [lists.head_eq]
    exact (List.head?_append_of_ne_nil _ (List.ne_nil_of_mem ((lists.mem_iff d).1 there))).symm

theorem new (lists : Lists listed asked) {d : Deployment} (missing : d ∉ listed) :
    Lists (listed ++ [d]) (asked ++ [d]) where
  mem_iff x := by
    rw [List.mem_append, List.mem_append, lists.mem_iff]
  ordered := by
    refine List.pairwise_append.2 ⟨lists.ordered_append d, List.pairwise_singleton _ _, fun x there y last => ?_⟩
    obtain rfl := List.mem_singleton.1 last
    have before : x ∈ asked := (lists.mem_iff x).1 there
    rw [List.idxOf_append_of_mem before, List.idxOf_append_of_notMem (mt (lists.mem_iff y).2 missing)]
    exact Nat.lt_of_lt_of_le (List.idxOf_lt_length_iff.2 before) (Nat.le_add_right _ _)
  head_eq := by
    rw [List.head?_append, List.head?_append, lists.head_eq]

/-- One more text lists the deployment that it stands for, if it stands for one. -/
theorem add {c : Contract} (lists : Lists c.deployments asked) (chainId : Nat) (text : String) :
    Lists (c.add chainId text).deployments (asked ++ (Deployment.ofText? chainId text).toList) := by
  rw [add_eq]
  cases Deployment.ofText? chainId text with
  | none =>
      rw [Option.toList_none, List.append_nil]
      exact lists
  | some d =>
      rw [Option.toList_some]
      by_cases there : d ∈ c.deployments
      · simp only [if_pos there]
        exact lists.known there
      · simp only [if_neg there]
        exact lists.new there

end Lists

theorem lists_declare (interface : Option String) (entries : List (Nat × String)) :
    Lists (declare interface entries).deployments (declared entries) := by
  -- Each addition keeps what is listed of the texts before it.
  suffices run : ∀ (c : Contract) (asked : List Deployment), Lists c.deployments asked →
      Lists (entries.foldl (fun c entry => c.add entry.1 entry.2) c).deployments (asked ++ declared entries) from
    run (.empty interface) [] ⟨fun _ => Iff.rfl, .nil, rfl⟩
  induction entries with
  | nil =>
      intro c asked lists
      rw [declared, List.filterMap_nil, List.append_nil]
      exact lists
  | cons entry rest ih =>
      intro c asked lists
      have next := ih _ _ (lists.add entry.1 entry.2)
      rw [List.append_assoc] at next
      have split : declared (entry :: rest) = (Deployment.ofText? entry.1 entry.2).toList ++ declared rest := by
        simp only [declared, List.filterMap_cons]
        cases Deployment.ofText? entry.1 entry.2 <;> rfl
      rw [List.foldl_cons, split]
      exact next

theorem mem_declared_iff {entries : List (Nat × String)} {d : Deployment} :
    d ∈ declared entries ↔ ∃ text, (d.chainId, text) ∈ entries ∧ Text.trim text ≠ "" ∧
      d.address = Text.lowercase (Text.trim text) := by
  rw [declared, List.mem_filterMap]
  constructor
  · rintro ⟨⟨chainId, text⟩, member, stands⟩
    obtain ⟨filled, rfl⟩ := Deployment.ofText?_eq_some_iff.1 stands
    exact ⟨text, member, filled, rfl⟩
  · rintro ⟨text, member, filled, address⟩
    refine ⟨_, member, Deployment.ofText?_eq_some_iff.2 ⟨filled, ?_⟩⟩
    rw [← address]

theorem deployedAt_iff (c : Contract) (chainId : Nat) (address : String) :
    c.deployedAt chainId address = true ↔ ⟨chainId, Text.lowercase address⟩ ∈ c.deployments := by
  rw [deployedAt, addressesOn, List.contains_iff_mem, List.mem_map]
  simp only [List.mem_filter, beq_iff_eq]
  constructor
  · rintro ⟨d, ⟨member, rfl⟩, same⟩
    rw [← same]
    exact member
  · intro member
    exact ⟨_, ⟨member, rfl⟩, rfl⟩

/-- After any additions a contract holds the deployments of the texts that are not blank, each once and in the order in
which they came first. The first of them is its first one, and an address is on a chain if one of these texts for the
chain has the same lower-case form. A blank text is not among them: it adds nothing, and neither does a known one. -/
theorem deployments_declare (interface : Option String) (entries : List (Nat × String)) :
    (∀ chainId text, (declare interface entries).add chainId text = declare interface entries ↔
        Text.trim text = "" ∨
          ⟨chainId, Text.lowercase (Text.trim text)⟩ ∈ (declare interface entries).deployments) ∧
      (∀ d, d ∈ (declare interface entries).deployments ↔ ∃ text, (d.chainId, text) ∈ entries ∧
        Text.trim text ≠ "" ∧ d.address = Text.lowercase (Text.trim text)) ∧
      (declare interface entries).deployments.Nodup ∧
      ((declare interface entries).deployments.Pairwise fun d e =>
        (declared entries).idxOf d < (declared entries).idxOf e) ∧
      (declare interface entries).first? = (declare interface entries).deployments.head? ∧
      (declare interface entries).first? = (declared entries).head? ∧
      ∀ chainId address, (declare interface entries).deployedAt chainId address = true ↔
        ∃ text, (chainId, text) ∈ entries ∧ Text.trim text ≠ "" ∧
          Text.lowercase address = Text.lowercase (Text.trim text) := by
  have lists := lists_declare interface entries
  have held (d : Deployment) := (lists.mem_iff d).trans mem_declared_iff
  exact ⟨add_eq_self_iff _, held, lists.nodup, lists.ordered, rfl, lists.head_eq,
    fun chainId address => (deployedAt_iff _ chainId address).trans (held ⟨chainId, Text.lowercase address⟩)⟩

end Contract
end TokenSchema
