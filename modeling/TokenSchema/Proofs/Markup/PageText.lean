import TokenSchema.Proofs.Markup.Spelling

/-!
# Page text — where the brackets of a page come from

Written out as page text, each element that a page keeps has two opening brackets, one in its start tag and one in
its end tag; its names have none. But texts and attribute values are written out without escapes, and they hold
whatever references and verbatim sections put there. So a page has two brackets for each element exactly if none of
the texts and values that it shows has one (`Markup.brackets_html_of_readDocument`), and a frame that is left out
can come back as text (`Ticket.html_view`).
-/

namespace TokenSchema
namespace Markup

/-! ## What a page keeps -/

mutual

/-- The elements of a node that a page keeps: those neither in a frame nor frames themselves. -/
def Node.kept : Node → List Element
  | .element tag children =>
      if tag.name.base = "iframe" then [] else ⟨tag, children⟩ :: Node.listKept children
  | .text _ => []
  | .aside => []

/-- The elements of some nodes that a page keeps. -/
def Node.listKept : List Node → List Element
  | [] => []
  | n :: rest => n.kept ++ Node.listKept rest

end

mutual

/-- The attribute values and texts of a node that a page shows, frames left out. -/
def Node.quoted : Node → List String
  | .element tag children =>
      if tag.name.base = "iframe" then [] else tag.attributes.map (·.2) ++ Node.listQuoted children
  | .text content => [content]
  | .aside => []

/-- The attribute values and texts of some nodes that a page shows. -/
def Node.listQuoted : List Node → List String
  | [] => []
  | n :: rest => n.quoted ++ Node.listQuoted rest

end

/-- The descendants that the page of an element keeps. -/
def Element.kept (e : Element) : List Element :=
  Node.listKept e.children

/-- The attribute values and texts that the page of an element shows. -/
def Element.quoted (e : Element) : List String :=
  Node.listQuoted e.children

/-! ## Brackets -/

/-- The number of opening brackets in a text. -/
def brackets (s : String) : Nat :=
  s.toList.count '<'

@[simp] theorem brackets_append (s t : String) : brackets (s ++ t) = brackets s + brackets t := by
  simp [brackets]

theorem brackets_eq_zero_iff {s : String} : brackets s = 0 ↔ '<' ∉ s.toList :=
  List.count_eq_zero

theorem brackets_join_eq_zero_iff {l : List String} :
    brackets (String.join l) = 0 ↔ ∀ s ∈ l, '<' ∉ s.toList := by
  rw [brackets_eq_zero_iff, String.toList_join]
  simp

theorem Spelled.brackets_eq {s : String} (spelled : Spelled s) : brackets s = 0 :=
  brackets_eq_zero_iff.2 spelled.bracket_not_mem

theorem count_dropWhile {p : Char → Bool} {c : Char} (stays : p c = false) (cs : List Char) :
    (cs.dropWhile p).count c = cs.count c := by
  have none : (cs.takeWhile p).count c = 0 := by
    refine List.count_eq_zero.2 fun member => ?_
    rw [List.all_eq_true.1 List.all_takeWhile c member] at stays
    cases stays
  -- Together with what is dropped this is the whole text.
  have all := congrArg (List.count c) (List.takeWhile_append_dropWhile (p := p) (l := cs))
  rwa [List.count_append, none, Nat.zero_add] at all

/-- Blanks are no brackets. -/
theorem count_trimChars (cs : List Char) : (Text.trimChars cs).count '<' = cs.count '<' := by
  have notBlank : Text.isBlank '<' = false := by decide
  rw [Text.trimChars, Text.stripChars, Text.dropEndWhile, List.count_reverse, count_dropWhile notBlank,
    List.count_reverse, count_dropWhile notBlank]

theorem brackets_trim (s : String) : brackets (Text.trim s) = brackets s := by
  rw [brackets, Text.toList_trim, count_trimChars, brackets]

/-- A quotation mark is no bracket, and neither has one when it is written as a reference. -/
theorem count_quotationMark (cs : List Char) : (quotationMark cs).count '<' = cs.count '<' := by
  induction cs with
  | nil => rfl
  | cons c rest ih =>
      rw [quotationMark, List.count_append, ih, List.count_cons]
      by_cases mark : c.toNat = 0x2019
      · have other : ¬ (c == '<') = true := by
          rintro same
          rw [beq_iff_eq.1 same] at mark
          exact absurd mark (by decide)
        have reference : "&#x2019;".toList.count '<' = 0 := by decide
        rw [if_pos mark, if_neg other, reference, Nat.zero_add, Nat.add_zero]
      · rw [if_neg mark, List.count_singleton, Nat.add_comm]

theorem brackets_htmlText (s : String) : brackets (htmlText s) = brackets s := by
  rw [htmlText, brackets, String.toList_ofList, count_trimChars, count_quotationMark, brackets]

/-- An attribute is written with the brackets of its value. -/
theorem brackets_htmlAttribute {a : Name × String} (spelled : Spelled a.1.base) :
    brackets (htmlAttribute a) = brackets a.2 := by
  have space : brackets " " = 0 := by decide
  have opening : brackets "=\"" = 0 := by decide
  have closing : brackets "\"" = 0 := by decide
  simp only [htmlAttribute, brackets_append, spelled.brackets_eq, brackets_trim, space, opening, closing,
    Nat.zero_add, Nat.add_zero]

theorem brackets_htmlAttributes {attributes : List (Name × String)}
    (spelled : ∀ a ∈ attributes, Spelled a.1.base) :
    brackets (String.join (attributes.map htmlAttribute)) = brackets (String.join (attributes.map (·.2))) := by
  induction attributes with
  | nil => rfl
  | cons a rest ih =>
      rw [List.forall_mem_cons] at spelled
      simp only [List.map_cons, String.join_cons, brackets_append, brackets_htmlAttribute spelled.1,
        ih spelled.2]

/-- A start tag has one bracket, and those of its values. -/
theorem brackets_htmlTag {t : Tag} (spelled : t.Spelled) :
    brackets (htmlTag t) = 1 + brackets (String.join (t.attributes.map (·.2))) := by
  have opening : brackets "<" = 1 := by decide
  have closing : brackets ">" = 0 := by decide
  simp only [htmlTag, brackets_append, spelled.name.brackets_eq, brackets_htmlAttributes spelled.attributes,
    opening, closing, Nat.add_zero]

mutual

theorem brackets_htmlNode : ∀ {n : Node}, n.Spelled →
    brackets (htmlNode n) = 2 * n.kept.length + brackets (String.join n.quoted)
  | .element tag children, .element spelled below => by
      have closing : brackets "</" = 1 ∧ brackets ">" = 0 := by decide
      -- A frame is written as nothing, and nothing of it is kept or quoted.
      rw [htmlNode, Node.kept, Node.quoted]
      split
      · decide
      · simp only [brackets_append, brackets_htmlTag spelled, brackets_htmlNodes below, spelled.name.brackets_eq,
          closing.1, closing.2, String.join_append, List.length_cons]
        omega
  | .text content, _ => by
      rw [htmlNode, brackets_htmlText, Node.kept, Node.quoted, String.join_cons, String.join_nil, String.append_empty,
        List.length_nil, Nat.mul_zero, Nat.zero_add]
  | .aside, _ => by
      rw [htmlNode, Node.kept, Node.quoted]
      decide

theorem brackets_htmlNodes : ∀ {nodes : List Node}, (∀ n ∈ nodes, n.Spelled) →
    brackets (htmlNodes nodes) = 2 * (Node.listKept nodes).length +
      brackets (String.join (Node.listQuoted nodes))
  | [], _ => by
      rw [htmlNodes, Node.listKept, Node.listQuoted]
      decide
  | n :: rest, each => by
      rw [List.forall_mem_cons] at each
      rw [htmlNodes, Node.listKept, Node.listQuoted, brackets_append, brackets_htmlNode each.1,
        brackets_htmlNodes each.2, List.length_append, String.join_append, brackets_append]
      omega

end

/-! ## Documents -/

/-- The page of an element of a document has two opening brackets for each element that it keeps, and beside them
those of the attribute values and texts that it shows. So it has only the two for each element exactly if none of
these values and texts has one. -/
theorem brackets_html_of_readDocument {document : String} {root top e : Element} {following : List Element}
    (parsed : readDocument document = .ok (root, following)) (atTop : top ∈ root :: following)
    (below : e ∈ top :: top.descendants) :
    brackets e.html = 2 * e.kept.length + brackets (String.join e.quoted) ∧
    (brackets e.html = 2 * e.kept.length ↔ ∀ s ∈ e.quoted, '<' ∉ s.toList) := by
  have topSpelled := spelled_of_readDocument parsed top atTop
  have spelled : e.Spelled := by
    rcases List.mem_cons.1 below with rfl | below
    · exact topSpelled
    · exact topSpelled.of_mem_descendants below
  have total : brackets e.html = 2 * e.kept.length + brackets (String.join e.quoted) := by
    cases spelled with
    | element names children => exact brackets_htmlNodes children
  refine ⟨total, ?_⟩
  rw [total, Nat.add_eq_left, brackets_join_eq_zero_iff]

end Markup

/-! ## A ticket with a frame as text -/

namespace Ticket

open Markup

/-- The view of a token shows a paragraph, and after it the text of a frame, whose brackets are references. -/
def document : String :=
  "<token xmlns=\"http://tokenscript.org/2024/01/tokenscript\"><cards><token name=\"main\"><view>" ++
  "<p>Ticket</p>&lt;iframe src=\"https://example.org/\"&gt;&lt;/iframe&gt;" ++
  "</view></token></cards></token>"

/-- The view in a document that is read. -/
def view? (top : Element × List Element) : Option Element :=
  top.1.descendants.find? (·.label == "view")

set_option maxRecDepth 100000 in
/-- The page has the frame as markup, although the view keeps the paragraph alone. -/
theorem html_view :
    ((readDocument document).toOption.bind view?).map (fun view =>
        (view.kept.map (·.label), view.quoted, view.html)) =
      some (["p"], ["Ticket", "<iframe src=\"https://example.org/\"></iframe>"],
        "<p>Ticket</p><iframe src=\"https://example.org/\"></iframe>") := by
  -- Decoding the text would be most of the evaluation, so its characters are put in first.
  unfold readDocument document
  simp only [String.toList_append]
  rw [String.toList_ofList, String.toList_ofList, String.toList_ofList]
  decide +kernel

/-- The view is an element of the document, and keeps one element; its page is known. -/
theorem exists_view : ∃ root following view, readDocument document = .ok (root, following) ∧
    view ∈ root :: root.descendants ∧ view.kept.length = 1 ∧
    view.quoted = ["Ticket", "<iframe src=\"https://example.org/\"></iframe>"] ∧
    view.html = "<p>Ticket</p><iframe src=\"https://example.org/\"></iframe>" := by
  obtain ⟨view, found, seen⟩ := Option.map_eq_some_iff.1 html_view
  obtain ⟨⟨root, following⟩, read, isView⟩ := Option.bind_eq_some_iff.1 found
  -- That the label alone is compared is enough: it is the number of elements that matters.
  obtain ⟨kept, quoted, html⟩ : view.kept.map (·.label) = ["p"] ∧ _ ∧ _ := by simpa using seen
  have one := congrArg List.length kept
  rw [List.length_map] at one
  exact ⟨root, following, view, eq_ok_of_toOption read, List.mem_cons_of_mem root (List.mem_of_find?_eq_some isView),
    one, quoted, html⟩

/-- The view keeps one element, but its page has four brackets, and a frame. -/
theorem brackets_html_view : ∃ root following view, readDocument document = .ok (root, following) ∧
    view ∈ root :: root.descendants ∧ brackets view.html ≠ 2 * view.kept.length ∧
    view.html = "<p>Ticket</p>" ++ "<iframe src=\"https://example.org/\">" ++ "</iframe>" := by
  obtain ⟨root, following, view, parsed, below, kept, -, html⟩ := exists_view
  refine ⟨root, following, view, parsed, below, ?_, html⟩
  rw [kept, html]
  decide

/-- Two of the brackets come from the paragraph, and two from the text. -/
theorem brackets_html_of_readDocument_view : ∃ root following view,
    readDocument document = .ok (root, following) ∧ view ∈ root :: root.descendants ∧
    brackets view.html = 2 * 1 + 2 ∧ ¬ brackets view.html = 2 * view.kept.length := by
  obtain ⟨root, following, view, parsed, below, kept, quoted, -⟩ := exists_view
  obtain ⟨total, unquoted⟩ := brackets_html_of_readDocument parsed List.mem_cons_self below
  refine ⟨root, following, view, parsed, below, ?_, ?_⟩
  · rw [total, kept, quoted]
    decide
  · rw [unquoted, quoted]
    decide

end Ticket

end TokenSchema
