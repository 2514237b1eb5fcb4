import Folio.Proofs.Book.Unique

/-!
# Links to headings by their anchors

Every heading of a page from Markdown has an anchor of its own, and no other heading of the book has
its label. A link is looked up whatever its case, though, and of several anchors that differ in case
only the last one is found. So a link with the exact anchor of a heading leads to this heading when
no later heading of the page differs from it in case only, and to the last such heading otherwise.
-/

namespace Folio

open Text

namespace Page

/-- A page that has no tree, or the tree that its Markdown is converted to. -/
def IsParsed (p : Page) : Prop :=
  ∀ tree, p.tree = some tree → ∃ page elements nodes,
    Markdown.documentTree page elements = .ok nodes ∧ tree = .document nodes

/-- What is converted on a page takes anchors that are free. -/
theorem IsParsed.takes {p : Page} (h : p.IsParsed) :
    ∃ used, Markdown.Takes [] used p.contents := by
  cases htree : p.tree with
  | none =>
    have hcontents : p.contents = [] := by rw [contents, htree]; rfl
    rw [hcontents]
    exact ⟨[], .none (List.forall_mem_nil _) rfl⟩
  | some tree =>
    obtain ⟨page, elements, nodes, hnodes, rfl⟩ := h tree htree
    have hcontents : p.contents = nodes := by rw [contents, htree]; rfl
    rw [hcontents]
    exact Markdown.documentTree_takes hnodes

/-- A page whose headings take anchors that are free has anchors that differ from each other. -/
theorem HasAnchors.of_takes {p : Page} {used : List String}
    (h : Markdown.Takes [] used p.contents) : p.HasAnchors where
  nodup := by
    have hfresh := h.fresh List.nodup_nil
    rwa [h.taken, List.append_nil, List.nodup_reverse] at hfresh
  anchors := h.anchors
  tidy := h.tidy

end Page

namespace Labels

variable {base : String} {ps : List Page} {p : Page}

/-- The only page with a path has all headings on this path. -/
theorem headingsOn_of_nodup (hpaths : (ps.map fun p => Path.normal base p.path).Nodup)
    (hp : p ∈ ps) :
    headingsOn base ps (Path.normal base p.path) = Node.headingsAll p.contents := by
  induction ps with
  | nil => cases hp
  | cons q rest ih =>
    obtain ⟨hq, hrest⟩ := List.nodup_cons.mp hpaths
    have hcons : headingsOn base (q :: rest) (Path.normal base p.path) =
        (if Path.normal base q.path = Path.normal base p.path then Node.headingsAll q.contents
          else []) ++ headingsOn base rest (Path.normal base p.path) := by
      rw [headingsOn, List.filter_cons]
      split <;> simp_all [headingsOn]
    rw [hcons]
    rcases List.mem_cons.mp hp with rfl | hp
    · have hnone : headingsOn base rest (Path.normal base p.path) = [] := by
        rw [headingsOn, List.filter_eq_nil_iff.mpr, List.flatMap_nil]
        intro r hr hpath
        exact hq (List.mem_map.mpr ⟨r, hr, of_decide_eq_true hpath⟩)
      rw [if_pos rfl, hnone, List.append_nil]
    · have hne : Path.normal base q.path ≠ Path.normal base p.path :=
        fun hpath => hq (List.mem_map.mpr ⟨p, hp, hpath.symm⟩)
      rw [if_neg hne, List.nil_append, ih hrest hp]

/-- The last heading of a name, from a heading of this name on. -/
theorem lastHeading?_of_split {path : String} {before after : List Heading} {h : Heading}
    (hsplit : headingsOn base ps path = before ++ h :: after) :
    ∃ g, lastHeading? base ps path h.label = some g ∧
      (h :: after.filter fun k => lower k.label = lower h.label).getLast? = some g := by
  have hlast : lastHeading? base ps path h.label =
      (h :: after.filter fun k => lower k.label = lower h.label).getLast? := by
    rw [lastHeading?, hsplit, List.filter_append, List.filter_cons_of_pos (by simp),
      List.getLast?_append, List.getLast?_cons]
    rfl
  rw [hlast, List.getLast?_cons]
  exact ⟨_, rfl, rfl⟩

/-- A link by the name of a heading leads to the last heading of the page that has this name, in
whatever case. -/
theorem resolveName_label (strict : Bool)
    (hpaths : (ps.map fun p => Path.normal base p.path).Nodup)
    (hkeys : ∀ p ∈ ps, '#' ∉ (Path.normal base p.path).toList) (hp : p ∈ ps)
    {before after : List Heading} {h : Heading} (hname : h.label ≠ "")
    (hsplit : Node.headingsAll p.contents = before ++ h :: after) :
    ∃ g, (h :: after.filter fun k => lower k.label = lower h.label).getLast? = some g ∧
      (ofPages base strict ps).resolveName p.path h.label = .ok g.label := by
  have hids : ∀ id ∈ headingIds base ps, '#' ∉ id.page.toList := by
    intro id hid
    obtain ⟨q, hq, hid⟩ := List.mem_flatMap.mp hid
    obtain ⟨_, _, rfl⟩ := List.mem_map.mp hid
    exact hkeys q hq
  rw [← headingsOn_of_nodup hpaths hp] at hsplit
  obtain ⟨g, hlast, hg⟩ := lastHeading?_of_split hsplit
  refine ⟨g, hg, ?_⟩
  have hbase : (ofPages base strict ps).base = base := rfl
  simp only [resolveName, if_neg hname, hbase, get?_index_or base strict hids (hkeys p hp), hlast,
    Option.map_some, Option.some_or]

/-- The labels of the headings of a book differ from each other if the paths of its pages and the
anchors on each page do. -/
theorem nodup_headingIds (hps : ∀ p ∈ ps, p.HasAnchors)
    (hpaths : (ps.map fun p => Path.normal base p.path).Nodup) :
    ((headingIds base ps).map LabelId.escaped).Nodup := by
  have hname (id : LabelId) (hid : id ∈ headingIds base ps) : '#' ∉ id.name.toList := by
    obtain ⟨p, hp, hid⟩ := List.mem_flatMap.mp hid
    obtain ⟨h, hh, rfl⟩ := List.mem_map.mp hid
    exact ((hps p hp).anchors h hh).2
  refine List.Nodup.map_on
    (fun i hi j hj hij => LabelId.escaped_inj (hname i hi) (hname j hj) hij) ?_
  refine List.nodup_flatMap.mpr ⟨fun p hp => ?_, ?_⟩
  · refine .of_map LabelId.name ?_
    rw [List.map_map]
    exact (hps p hp).nodup
  · refine (List.pairwise_map.mp hpaths).imp fun {p q} hne id hid hid' => ?_
    obtain ⟨_, _, rfl⟩ := List.mem_map.mp hid
    obtain ⟨_, _, heq⟩ := List.mem_map.mp hid'
    exact hne (congrArg LabelId.page heq).symm

end Labels

namespace Book

variable {base : String} {ps : List Page} {p : Page}

/-- A heading has its label for an anchor, and no heading of the book shares the label. A link by
the exact anchor leads to the last heading of the page that has the anchor in whatever case, which
is the heading itself when no later heading differs from it in case only. -/
theorem anchor_leads_iff (strict : Bool) (hps : ∀ p ∈ ps, p.IsParsed)
    (hpaths : (ps.map fun p => Path.normal base p.path).Nodup)
    (hkeys : ∀ p ∈ ps, '#' ∉ (Path.normal base p.path).toList) (hp : p ∈ ps)
    {before after : List Heading} {h : Heading}
    (hsplit : Node.headingsAll p.contents = before ++ h :: after) :
    let labels := Labels.ofPages base strict ps
    h.anchor = some h.label ∧ ((Labels.headingIds base ps).map LabelId.escaped).Nodup ∧
      (∃ g, (h :: after.filter fun k => lower k.label = lower h.label).getLast? = some g ∧
        labels.resolveName p.path h.label = .ok g.label) ∧
      (labels.resolveName p.path h.label = .ok h.label ↔
        ∀ k ∈ after, lower k.label ≠ lower h.label) := by
  intro labels
  have hanchors : ∀ p ∈ ps, p.HasAnchors := by
    intro q hq
    obtain ⟨used, htakes⟩ := (hps q hq).takes
    exact .of_takes htakes
  obtain ⟨used, htakes⟩ := (hps p hp).takes
  have hmem : h ∈ Node.headingsAll p.contents := by
    rw [hsplit]
    exact List.mem_append_right _ List.mem_cons_self
  have hleads := Labels.resolveName_label strict hpaths hkeys hp (htakes.anchors h hmem).1 hsplit
  refine ⟨htakes.named h hmem, Labels.nodup_headingIds hanchors hpaths, hleads, ?_⟩
  obtain ⟨g, hg, hresolve⟩ := hleads
  rw [hresolve, Except.ok.injEq]
  constructor
  · intro hlabel k hk hlower
    -- A later heading of the name is found, and it does not share the anchor of the earlier one.
    have hlater : g ∈ after := by
      have hk' : k ∈ after.filter fun k => lower k.label = lower h.label :=
        List.mem_filter.mpr ⟨hk, decide_eq_true hlower⟩
      rw [List.getLast?_cons, List.getLast?_eq_some_getLast (List.ne_nil_of_mem hk')] at hg
      obtain rfl := Option.some.inj hg
      exact (List.mem_filter.mp (List.getLast_mem _)).1
    have hnodup := (hanchors p hp).nodup
    rw [hsplit, List.map_append, List.map_cons] at hnodup
    refine (List.nodup_cons.mp (List.nodup_append.mp hnodup).2.1).1 ?_
    exact List.mem_map.mpr ⟨g, hlater, hlabel⟩
  · intro hnone
    have hempty : after.filter (fun k => lower k.label = lower h.label) = [] :=
      List.filter_eq_nil_iff.mpr fun k hk => by simpa using hnone k hk
    rw [hempty] at hg
    obtain rfl := Option.some.inj hg
    rfl

/-- The syntax tree of a page with a heading in a quote that differs from another one in case. -/
def caseSample : List Markdown.Element :=
  [sampleHeading "Setup", .mk .quote ⟨"", "", "", [], []⟩ [sampleHeading "setup"],
    sampleHeading "Setup"]

/-- The nodes of this syntax tree. -/
def caseNodes : List Node := [
  .heading 1 [.text "Setup"] (some "Setup"),
  .quote [.heading 1 [.text "setup"] (some "setup")],
  .heading 1 [.text "Setup"] (some "Setup-2")]

/-- A book of this page only. -/
def casePages : List Page := [⟨"notes.md", some (.document caseNodes), "", 1⟩]

theorem anchor_leads_iff_casePages :
    (∀ p ∈ casePages, p.IsParsed) ∧
      (casePages.map fun p => Path.normal "" p.path).Nodup ∧
      (∀ p ∈ casePages, '#' ∉ (Path.normal "" p.path).toList) ∧
      (Labels.ofPages "" true casePages).resolveName "notes.md" "setup" = .ok "setup" := by
  have hps : ∀ p ∈ casePages, p.IsParsed := by
    refine List.forall_mem_singleton.mpr ?_
    rintro tree ⟨⟩
    exact ⟨"notes.md", caseSample, _, rfl, rfl⟩
  have hpaths : (casePages.map fun p => Path.normal "" p.path).Nodup := by decide
  have hkeys : ∀ p ∈ casePages, '#' ∉ (Path.normal "" p.path).toList := by decide
  have hsplit : Node.headingsAll caseNodes =
      [⟨1, [.text "Setup"], some "Setup"⟩] ++ ⟨1, [.text "setup"], some "setup"⟩ ::
        [⟨1, [.text "Setup"], some "Setup-2"⟩] := rfl
  have hleads := anchor_leads_iff true hps hpaths hkeys List.mem_cons_self hsplit
  exact ⟨hps, hpaths, hkeys, hleads.2.2.2.mpr (by decide)⟩

/-- A link by the exact anchor of a heading leads to another heading, which has the same anchor in
lower case. -/
theorem anchor_misses_its_heading :
    Markdown.documentTree "notes.md" caseSample = .ok caseNodes ∧
      (Node.headingsAll caseNodes).map Heading.anchor =
        [some "Setup", some "setup", some "Setup-2"] ∧
      (Labels.ofPages "" true casePages).resolveName "notes.md" "Setup" = .ok "setup" :=
  ⟨rfl, rfl, rfl⟩

end Book

end Folio
