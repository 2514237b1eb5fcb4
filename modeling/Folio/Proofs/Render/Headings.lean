import Folio.Proofs.Render.Calls
import Folio.Proofs.Render.Unlinked

/-!
# The text of a heading

The text of a heading may stand in a table of contents, where it is a link itself. So the links in
it are written without a link of their own, in phrases around them and in footnotes alike. A link to
a page of the book is written as a link nevertheless.
-/

namespace Folio

open Draft Node

/-- What follows the text of a heading. -/
def headingEnd (r : Renderer) (c : Context) (h : Heading) : Draft :=
  if c.inDocs then markup "])\n"
  else markup "]) " >> ofPiece (.anchor (r.labels.id c.page h.label)) >> markup "\n\n"

/-- A draft without a fault has no link exactly if none of the nodes is there that are written as
links. -/
theorem Draft.Calls.calls_eq_nil_iff {labels : Labels} {ns : List Node} {d : Draft}
    (h : Calls labels ns d) (hfault : d.fault = none) : d.calls = [] ↔ ns = [] := by
  rw [← List.map_eq_nil_iff (f := some), h.complete hfault, List.map_eq_nil_iff]

/-- Of the links in the text of a heading, and in the footnotes that belong to it, nothing is
written but their children: the text is the same without the links, and in a phrase no link is left
then. The links that are written in the text are those of other nodes, in order, all of them unless
the writing ends with a fault: of links to pages of the book, and in footnotes also of indexes,
tables of contents and documentation. A text without a fault has no link exactly if there are no
such nodes. -/
theorem heading_text_links_only_callers (r : Renderer) (c : Context) (depth : Nat) (level : Int)
    {cs : List Node} (anchor : Option String) (hcs : IsPhrase cs) :
    let inside : Context := { c with inHeading := true }
    let text := r.draftUpTo (depth + 1) inside cs
    let callers := callersUpTo c.notes (depth + 1) cs
    draftNode r (r.draftUpTo depth) c (.heading level cs anchor) =
        (markup ("#heading(level: " ++ toString (headingLevel c level) ++ ", [") >>
          text >> headingEnd r c ⟨level, cs, anchor⟩) ∧
      r.draftUpTo (depth + 1) inside.unlinked (unlinkedAll cs) = text ∧
      (∀ m ∈ walkAll (unlinkedAll cs), m.isLink = false) ∧
      Calls r.labels callers text ∧
      (text.fault = none → (text.calls = [] ↔ callers = [])) := by
  intro inside text callers
  have hcalls : Calls r.labels callers text := r.draftUpTo_calls (depth + 1) inside rfl cs
  refine ⟨?_, (r.draftUpTo_unlinked (depth + 1) inside rfl cs).1, isLink_of_mem_unlinkedAll cs hcs,
    hcalls, hcalls.calls_eq_nil_iff⟩
  rw [draftNode]
  rfl

/-- A renderer for a book without labels. -/
def bareRenderer : Renderer := ⟨⟨"", false, [], []⟩, fun _ => none, none⟩

/-- The surroundings at the start of the guide, with a footnote. -/
def guideContext : Context :=
  .atPage "guide.md" 1 [("a", [.paragraph [.link "https://x.org" [.text "there"]]])]

/-- A phrase with a link and a footnote that has a link. -/
def linkedPhrase : List Node :=
  [.text "See ", .strong [.link "other.md#top" [.text "other"]], .footnoteMark "a"]

theorem heading_text_links_only_callers_linkedPhrase :
    IsPhrase linkedPhrase ∧
      (bareRenderer.draftUpTo 2 { guideContext with inHeading := true } linkedPhrase).calls =
        [] := by
  have hphrase : IsPhrase linkedPhrase := by
    unfold IsPhrase
    decide
  have h := heading_text_links_only_callers bareRenderer guideContext 1 1 none hphrase
  exact ⟨hphrase, (h.2.2.2.2 rfl).mpr rfl⟩

/-- A phrase with a link to a page. -/
def pagePhrase : List Node := [.text "See ", .pageLink "other.md" "" [.text "other"]]

/-- A heading with a link to a page has a link in its text. -/
theorem page_link_stays_in_heading :
    IsPhrase pagePhrase ∧
      (draftNode bareRenderer (bareRenderer.draftUpTo 1) guideContext
        (.heading 1 pagePhrase none)).text =
        "#heading(level: 1, [See #link(label(\"other.md#__page__\"))[other]]) " ++
          "#label(\"guide.md#See-other\")\n\n" := by
  refine ⟨by unfold IsPhrase; decide, ?_⟩
  decide +kernel

end Folio
