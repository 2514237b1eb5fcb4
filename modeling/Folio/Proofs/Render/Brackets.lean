import Folio.Proofs.Draft.Sequence
import Folio.Proofs.Label.Index
import Folio.Proofs.Markup.Brackets
import Folio.Proofs.Render.InPlace
import Folio.Proofs.Render.Steps
import Folio.Proofs.Text.Parts
import Mathlib.Tactic.IntervalCases

/-!
# Brackets in what is written

Every rule of writing opens and closes brackets in pieces of its own. If no text of a tree, of the
footnotes or of the index has a bracket, each piece does to the stack of awaited brackets what its
markup says, and what a node writes leaves the stack as it was: it is well nested.
-/

namespace Folio

open Draft

namespace Node

mutual

/-- All texts that a node holds, in its documentation and its entries too. -/
def texts : Node → List String
  | .heading _ cs anchor => anchor.toList ++ textsAll cs
  | .admonition category title cs => category :: title :: textsAll cs
  | .codeBlock s info => [s, info]
  | .raw target s => [target, s]
  | .footnote id cs => id :: textsAll cs
  | .binding name category bodies page => name :: category :: page :: textsAll bodies
  | .body tree source => source.toList ++ texts tree
  | .indexEntry name page label => [name, page, label]
  | .contentsEntry page label _ cs => page :: label :: textsAll cs
  | .link destination cs | .image destination cs _ => destination :: textsAll cs
  | .pageLink page fragment cs => page :: fragment :: textsAll cs
  | .displayMath s | .text s | .code s | .math s | .footnoteMark s => [s]
  | .document cs | .paragraph cs | .list _ cs | .listItem cs | .quote cs | .table _ cs
  | .tableRow cs | .tableCell cs | .index cs | .contents cs _ | .strong cs | .emph cs => textsAll cs
  | .rule | .lineBreak | .softBreak => []

/-- All texts that nodes hold. -/
def textsAll : List Node → List String
  | [] => []
  | node :: rest => texts node ++ textsAll rest

end

/-- Whether no text of a node has a bracket. -/
def Bare (n : Node) : Prop := ∀ s ∈ n.texts, Markup.Bare s

/-- Whether no text of some nodes has a bracket. -/
def BareAll (ns : List Node) : Prop := ∀ s ∈ textsAll ns, Markup.Bare s

instance (n : Node) : Decidable n.Bare := inferInstanceAs (Decidable (∀ s ∈ n.texts, _))

instance (ns : List Node) : Decidable (BareAll ns) :=
  inferInstanceAs (Decidable (∀ s ∈ textsAll ns, _))

/-- The texts of nodes are those of the first one and of the rest. -/
theorem bareAll_cons {n : Node} {rest : List Node} :
    BareAll (n :: rest) ↔ n.Bare ∧ BareAll rest := List.forall_mem_append

/-- A node has the texts of what stands in it. -/
theorem Bare.inside {n : Node} (h : n.Bare) : BareAll n.inside := by
  refine fun s hs => h s ?_
  cases n <;> simp_all [Node.inside, children, texts, textsAll]

/-- A footnote that is a single paragraph has the texts of the paragraph. -/
theorem BareAll.footnoteText {cs : List Node} (h : BareAll cs) : BareAll (footnoteText cs) := by
  unfold Folio.footnoteText
  split
  · have hparagraph := (bareAll_cons.mp h).1
    rwa [Bare, texts] at hparagraph
  · exact h

end Node

/-- Whether no label that the index leads to has a bracket. -/
structure Labels.Bare (labels : Labels) : Prop where
  index : ∀ entry ∈ labels.index, Markup.Bare entry.2
  first : ∀ entry ∈ labels.first, Markup.Bare entry.2

/-- Whether no name that the highlighter puts first for a language has a bracket. -/
def Language.Lexers.Bare (lexers : Lexers) : Prop :=
  ∀ name names, lexers name = some names → ∀ first ∈ names.head?, Markup.Bare first

/-- Whether neither the path of the page nor a text of its footnotes has a bracket. -/
structure Context.Bare (c : Context) : Prop where
  page : Markup.Bare c.page
  notes : ∀ note ∈ c.notes, Node.BareAll note.2

namespace Markup.Bare

variable {s t : String}

/-- A text is without brackets if its characters are. -/
theorem contents {cs : List Char} (h : ∀ c ∈ cs, c ∉ brackets) : Bare (String.ofList cs) := by
  rwa [Bare, String.toList_ofList]

/-- Escapes add backslashes only. -/
theorem escaped {escape : Char → List Char} (hescape : ∀ c, ∀ d ∈ escape c, d = c ∨ d = '\\')
    (h : Bare s) : Bare (String.ofList (s.toList.flatMap escape)) := by
  refine contents fun d hd => ?_
  obtain ⟨c, hc, hd⟩ := List.mem_flatMap.mp hd
  rcases hescape c d hd with rfl | rfl
  · exact h d hc
  · decide

/-- Escaped prose has the brackets of the prose only. -/
theorem escapeContent (h : Bare s) : Bare (escapeContent s) := by
  refine h.escaped fun c d hd => ?_
  rw [contentChar] at hd
  split at hd <;> simp_all [or_comm]

/-- Neither the quotes nor the escapes of a string are brackets. -/
theorem literalText (h : Bare s) : Bare (literalText s) := by
  have hescaped : Bare (escapeString s) := by
    refine h.escaped fun c d hd => ?_
    rw [stringChar] at hd
    split at hd <;> simp_all [or_comm]
  exact Bare.append (Bare.append (by decide) hescaped) (by decide)

/-- A normal path has no characters but those of the path and slashes. -/
theorem normal (h : Bare s) (base : String) : Bare (Path.normal base s) := by
  refine h.of_subset fun c hc => ?_
  by_cases hslash : c = '/'
  · exact .inr (hslash ▸ by decide)
  · exact .inl (Path.mem_of_mem_normal hc hslash)

/-- A slug is made of letters, digits, hyphens and underscores. -/
theorem slug (s : String) : Bare (slug s) := by
  intro c hc hbracket
  have hnone : brackets.all fun d => !isSlugChar d := by decide
  have hbad := List.all_eq_true.mp hnone c hbracket
  rw [isSlugChar_of_mem_slug hc] at hbad
  cases hbad

/-- Joined texts have the brackets of the texts and of what stands between them. -/
theorem joinWith {parts : List String} (ht : Bare t) (h : ∀ s ∈ parts, Bare s) :
    Bare (Text.joinWith t parts) := by
  fun_induction Text.joinWith t parts with
  | case1 => exact nofun
  | case2 s => exact h s (List.mem_singleton_self s)
  | case3 s next rest ih =>
    exact ((h s List.mem_cons_self).append ht).append
      (ih fun u hu => h u (List.mem_cons_of_mem _ hu))

theorem repeated (h : Bare s) (n : Nat) : Bare (Text.repeated n s) := by
  induction n with
  | zero => exact nofun
  | succ n ih => exact h.append ih

/-- The names of alignments have no brackets. -/
theorem alignments (columns : List (Option Alignment)) : Bare (alignments columns) := by
  refine joinWith (by decide) fun s hs => ?_
  obtain ⟨column, -, rfl⟩ := List.mem_map.mp hs
  split <;> decide

/-- A language is named in the fence, by a session or by the highlighter. -/
theorem language {lexers : Language.Lexers} (hlexers : lexers.Bare) (h : Bare s) :
    Bare (Language.ofInfo lexers s) := by
  have hword : Bare (Language.firstWord s) := by
    rw [Language.firstWord]
    split
    · exact nofun
    · next w ws hwords =>
      refine h.of_subset fun c hc => .inl ?_
      rw [String.toList_ofList] at hc
      exact Text.mem_of_mem_words (hwords ▸ List.mem_cons_self)
        ((List.takeWhile_prefix _).subset hc)
  have hcanonical : Bare (Language.canonical lexers (Language.firstWord s)) := by
    rw [Language.canonical]
    split
    · next names hnames =>
      cases names with
      | nil => exact hword
      | cons first _ => exact hlexers _ _ hnames first rfl
    · exact hword
  simp only [Language.ofInfo]
  split
  · decide
  · split
    · next hlookup =>
      have htable : ∀ entry ∈ Language.sessions, Bare entry.2 := by decide
      obtain ⟨before, after, heq, -⟩ := List.lookup_eq_some_iff.mp hlookup
      exact htable _ (heq ▸ List.mem_append_right before List.mem_cons_self)
    · exact hcanonical

/-- Bullets and numbers of items have no brackets. -/
theorem listMarker (depth : Nat) (ordered : Bool) : Bare (listMarker depth ordered) :=
  .append (.repeated (by decide) depth) (by cases ordered <;> decide)

/-- The label of a heading is a slug or the anchor that it was given. -/
theorem headingLabel {level : Int} {cs : List Node} {anchor : Option String}
    (h : ∀ s ∈ anchor.toList, Bare s) : Bare (Heading.label ⟨level, cs, anchor⟩) := by
  rw [Heading.label]
  split
  · next anchor hanchor =>
    obtain rfl : _ = some anchor := hanchor
    split
    · exact .slug _
    · exact h anchor (List.mem_singleton_self anchor)
  · exact .slug _

/-- A label in the output has the characters of its page and its name. -/
theorem labelId (labels : Labels) (hs : Bare s) (ht : Bare t) : Bare (labels.id s t).text := by
  rw [LabelId.text]
  split
  · exact ht
  · exact ((hs.normal _).append (by decide)).append ht

/-- The path of an image has the characters of its destination and of the page. -/
theorem imagePath {page destination : String} (hpage : Bare page) (h : Bare destination)
    (isLocal : Bool) : Bare (imagePath page destination isLocal) := by
  have hslash {u : String} (hu : Bare u) : ∀ c ∈ Path.withSlashes u.toList, c ∉ brackets := by
    intro c hc
    by_cases heq : c = '/'
    · exact heq ▸ by decide
    · exact hu c (Path.mem_withSlashes hc heq)
  have htarget := hslash h
  simp only [Folio.imagePath]
  generalize Path.withSlashes destination.toList = target at htarget
  split
  · exact contents htarget
  · refine contents fun c hc => ?_
    split at hc
    · next rest =>
      rcases Path.mem_collapse hc with hc | rfl | rfl
      · exact htarget c ((List.dropWhile_suffix _).subset hc)
      · decide
      · decide
    · rcases Path.mem_resolve hc with hc | hc | rfl | rfl
      · exact hslash hpage c hc
      · exact htarget c hc
      · decide
      · decide

end Markup.Bare

namespace Draft

/-- Behind a draft without a fault, `after` is awaited where `before` was awaited in front of it. -/
def Turns (before after : List Char) (d : Draft) : Prop :=
  d.fault = none → Markup.Turns before after d.text

namespace Turns

variable {a b c : List Char} {d e : Draft}

/-- Drafts in sequence open and close brackets one after the other. -/
theorem seq (hd : Turns a b d) (he : Turns b c e) : Turns a c (d >> e) := by
  intro h
  obtain ⟨hfd, hfe⟩ := fault_seq_eq_none.mp h
  rw [text_seq hfd]
  exact (hd hfd).append (he hfe)

/-- Behind a fault nothing is promised. -/
theorem stop (f : Fault) : Turns a b (stop f) := nofun

theorem nothing (a : List Char) : Turns a a empty := fun _ _ => rfl

/-- A piece does to the awaited brackets what its text does. -/
theorem piece {p : Piece} (h : Markup.Turns a b p.written) : Turns a b (ofPiece p) := by
  intro _
  rwa [text_ofPiece]

/-- Markup does to the awaited brackets what reading it comes to. -/
theorem text (a b : List Char) {s : String} (h : Markup.Turns a b s := by exact fun _ => rfl) :
    Turns a b (markup s) := piece h

/-- A piece without brackets leaves awaited what was. -/
theorem bare {p : Piece} (h : Markup.Bare p.written) (a : List Char) : Turns a a (ofPiece p) :=
  piece (.bare h a)

/-- What leaves nothing awaited leaves awaited whatever was. -/
theorem within (h : Turns [] [] d) (a : List Char) : Turns a a d :=
  fun hok stack => h hok (a ++ stack)

/-- What leaves awaited what was may be left out. -/
theorem when (h : Turns a a d) (condition : Bool) : Turns a a (when condition d) := by
  cases condition with
  | false => exact nothing a
  | true => exact h

/-- Only a result that is there is written. -/
theorem ofExcept {α : Type} {r : Except Fault α} {next : α → Draft}
    (h : ∀ x, r = .ok x → Turns a b (next x)) : Turns a b (ofExcept r next) := by
  cases r with
  | ok x => exact h x rfl
  | error f => exact stop f

/-- What is opened in front of a draft is closed behind it. -/
theorem inside (h : Turns [] [] d) (a : List Char) {s t : String}
    (hs : Markup.Turns [] a s := by exact fun _ => rfl)
    (ht : Markup.Turns a [] t := by exact fun _ => rfl) :
    Turns [] [] (markup s >> d >> markup t) :=
  (text [] a hs).seq ((h.within a).seq (text a [] ht))

/-- A string has the brackets of its text only. -/
theorem literal {s : String} (h : Markup.Bare s) (a : List Char) : Turns a a (literal s) :=
  bare (p := .literal s) h.literalText a

/-- The call that sets a label is closed behind it. -/
theorem anchor {id : LabelId} (h : Markup.Bare id.text) : Turns [] [] (ofPiece (.anchor id)) := by
  have hopen : Markup.Turns [] [')'] "#label(" := fun _ => rfl
  have hclose : Markup.Turns [')'] [] ")" := fun _ => rfl
  exact piece ((hopen.append (.bare h.literalText _)).append hclose)

/-- The call of a link to an address is closed behind it. -/
theorem address {url : String} (h : Markup.Bare url) :
    Turns [] [] (ofPiece (.link (.address url))) := by
  have hopen : Markup.Turns [] [')'] "#link(" := fun _ => rfl
  have hclose : Markup.Turns [')'] [] ")" := fun _ => rfl
  exact piece ((hopen.append (.bare h.literalText _)).append hclose)

/-- The two calls of a link to a label are closed behind it. -/
theorem label {id : LabelId} (h : Markup.Bare id.text) :
    Turns [] [] (ofPiece (.link (.label id))) := by
  have hopen : Markup.Turns [] [')', ')'] "#link(label(" := fun _ => rfl
  have hclose : Markup.Turns [')', ')'] [] "))" := fun _ => rfl
  exact piece ((hopen.append (.bare h.literalText _)).append hclose)

/-- Code set as a block is a call, or markup as it stands. -/
theorem codeBlock {lexers : Language.Lexers} {code info : String} (hlexers : lexers.Bare)
    (hcode : Markup.Bare code) (hinfo : Markup.Bare info) :
    Turns [] [] (codeBlock lexers code info) := by
  have hbefore : Markup.Turns [')'] [')'] ", block: true, lang: \"" := fun _ => rfl
  have hafter : Markup.Turns [')'] [] "\")\n" := fun _ => rfl
  rw [Folio.codeBlock]
  split
  · exact (text [] []).seq ((bare (p := .markup code) hcode []).seq (text [] []))
  · exact (text [] [')']).seq ((literal hcode _).seq
      (text _ _ ((hbefore.append (.bare (hinfo.language hlexers) _)).append hafter)))

/-- Looking at an image writes nothing. -/
theorem imageCheck (r : Renderer) (page destination : String) (isLocal : Bool) (a : List Char) :
    Turns a a (imageCheck r page destination isLocal) := by
  simp only [Folio.imageCheck]
  split
  · exact nothing a
  · split
    · exact fun _ _ => rfl
    · split
      · exact nothing a
      · exact .ofExcept fun found _ => Turns.when (fun _ _ => rfl) _

end Turns

end Draft

/-- A link of the text leads to a label without brackets. -/
theorem Labels.Bare.resolve {labels : Labels} (h : labels.Bare) {page fragment : String}
    {id : LabelId} (hpage : Markup.Bare page) (hfragment : Markup.Bare fragment)
    (hid : labels.resolve page fragment = .ok id) : Markup.Bare id.text := by
  cases hname : labels.resolveName page fragment with
  | error f => simp [Labels.resolve, hname, Except.map] at hid
  | ok name =>
    have hbare : Markup.Bare name := by
      simp only [resolveName] at hname
      split at hname
      · cases hname
        cases hfirst : labels.first.get? (Path.normal labels.base page) with
        | none => decide
        | some name => exact h.first _ (Table.mem_of_get?_eq_some hfirst)
      · split at hname
        · next hindex =>
          cases hname
          exact h.index _ (Table.mem_of_get?_eq_some hindex)
        · split at hname
          · cases hname
          · cases hname
            exact hfragment
    obtain rfl : labels.id page name = id := by
      simpa [Labels.resolve, hname, Except.map] using hid
    exact .labelId labels hpage hbare

/-- What a link of the text leads to is well nested. -/
theorem linkTarget_turns {labels : Labels} (hlabels : labels.Bare) {page destination : String}
    {target : Target} (hpage : Markup.Bare page) (h : Markup.Bare destination)
    (htarget : linkTarget labels page destination = .ok target) :
    Turns [] [] (ofPiece (.link target)) := by
  have hmap {e : Except Fault LabelId} (h : e.map Target.label = .ok target) :
      ∃ id, e = .ok id ∧ target = .label id := by
    cases e with
    | error f => cases h
    | ok id => exact ⟨id, rfl, (Except.ok.inj h).symm⟩
  simp only [linkTarget] at htarget
  split at htarget
  · cases htarget
    exact .address h
  · split at htarget
    · next before fragment hcut =>
      obtain ⟨id, hid, rfl⟩ := hmap htarget
      have hparts := Text.eq_of_cut? hcut
      have hbefore : Markup.Bare (String.ofList before ++ ".md") :=
        .append (.contents fun c hc => h c (by simp [hparts, hc])) (by decide)
      exact .label (hlabels.resolve hbefore (.contents fun c hc => h c (by simp [hparts, hc])) hid)
    · split at htarget
      · next rest hfront =>
        obtain ⟨id, hid, rfl⟩ := hmap htarget
        refine .label (hlabels.resolve hpage (.contents fun c hc => h c ?_) hid)
        rw [hfront]
        exact List.mem_cons_of_mem _ ((List.dropWhile_suffix _).subset hc)
      · cases htarget
        exact .address h

/-- A heading opens a call and its text. -/
theorem headingOpening_turns (c : Context) (level : Int) :
    Markup.Turns [] [']', ')']
      ("#heading(level: " ++ toString (headingLevel c level) ++ ", [") := by
  have hfront : Markup.Turns [] [')'] "#heading(level: " := fun _ => rfl
  have hback : Markup.Turns [')'] [']', ')'] ", [" := fun _ => rfl
  refine (hfront.append (.bare ?_ _)).append hback
  have hbounds : 1 ≤ headingLevel c level ∧ headingLevel c level ≤ 7 := by
    simp only [headingLevel, deepestHeading]
    omega
  obtain ⟨hlow, hhigh⟩ := hbounds
  generalize headingLevel c level = n at hlow hhigh
  interval_cases n <;> decide

/-- A table opens a block, a call and the list of its columns, and closes the latter. -/
theorem tableOpening_turns (columns : List (Option Alignment)) :
    Markup.Turns [] [')', ']'] ("#align(center)[\n#table(\ncolumns: (" ++
      Text.repeated columns.length "1fr," ++ "),\nalign: (x, y) => (" ++ alignments columns ++
      ",).at(x),\n") := by
  have hfront : Markup.Turns [] [')', ')', ']'] "#align(center)[\n#table(\ncolumns: (" :=
    fun _ => rfl
  have hmiddle : Markup.Turns [')', ')', ']'] [')', ')', ']'] "),\nalign: (x, y) => (" :=
    fun _ => rfl
  have hback : Markup.Turns [')', ')', ']'] [')', ']'] ",).at(x),\n" := fun _ => rfl
  exact (((hfront.append (.bare (.repeated (by decide) _) _)).append hmiddle).append
    (.bare (.alignments columns) _)).append hback

/-- An admonition opens a call, and its kind has no brackets. -/
theorem admonitionOpening_turns {category : String} (h : Markup.Bare category) :
    Markup.Turns [] [')'] ("#admonition(type: \"" ++
      (if admonitionKinds.contains category then category else "default") ++ "\", title: ") := by
  have hfront : Markup.Turns [] [')'] "#admonition(type: \"" := fun _ => rfl
  have hback : Markup.Turns [')'] [')'] "\", title: " := fun _ => rfl
  refine (hfront.append (.bare ?_ _)).append hback
  split
  · exact h
  · decide

/-- What a link, an entry or a source without brackets leads to is well nested. -/
theorem Node.Bare.destination {labels : Labels} (hlabels : labels.Bare) {page : String} {n : Node}
    {target : Target} (hpage : Markup.Bare page) (hn : n.Bare)
    (h : n.destination labels page = .ok target) : Turns [] [] (ofPiece (.link target)) := by
  cases n with
  | link destination cs => exact linkTarget_turns hlabels hpage (List.forall_mem_cons.mp hn).1 h
  | pageLink place fragment cs =>
    obtain ⟨hplace, hfragment, -⟩ := (List.forall_mem_cons.mp hn).imp_right List.forall_mem_cons.mp
    rw [Node.destination] at h
    cases hid : labels.resolve place fragment with
    | error f =>
      rw [hid] at h
      cases h
    | ok id =>
      rw [hid] at h
      cases h
      exact .label (hlabels.resolve hplace hfragment hid)
  | indexEntry name place label =>
    obtain ⟨-, hplace, hlabel⟩ := (List.forall_mem_cons.mp hn).imp_right List.forall_mem_cons.mp
    cases h
    exact .label (.labelId labels hplace (List.forall_mem_singleton.mp hlabel))
  | contentsEntry place label level cs =>
    obtain ⟨hplace, hlabel, -⟩ := (List.forall_mem_cons.mp hn).imp_right List.forall_mem_cons.mp
    cases h
    exact .label (.labelId labels hplace hlabel)
  | body tree url =>
    cases url with
    | none => cases h
    | some url =>
      cases h
      exact .address (hn url List.mem_cons_self)
  | _ => cases h

/-! ### What the steps of a rule do -/

/-- Whether neither the surroundings nor the nodes of a passage have a text with brackets. -/
structure Passage.Bare (t : Passage) : Prop where
  context : t.context.Bare
  nodes : Node.BareAll t.nodes

/-- What is handed on has the texts of the passage only. -/
theorem Passage.Hands.bare {t t' : Passage} (h : t.Hands t') (ht : t.Bare) : t'.Bare := by
  obtain ⟨hc, n, rest, hn, h⟩ := h
  obtain ⟨hfirst, hrest⟩ := Node.bareAll_cons.mp (hn ▸ ht.nodes)
  refine ⟨⟨hc.page ▸ ht.context.page, hc.notes ▸ ht.context.notes⟩, ?_⟩
  rcases h with h | h | ⟨h, -, -⟩
  · exact h ▸ hfirst.inside
  · exact h ▸ hrest
  · exact h ▸ Node.bareAll_cons.mpr ⟨hfirst, nofun⟩

namespace Step

/-- What a step whose texts have no brackets does to the awaited brackets, provided that its
passages leave them as they are. A heading ends its text and its call. -/
def Turns (a b : List Char) : Step → Prop
  | markup s => Markup.Turns a b s
  | prose s | literal s => Markup.Bare s ∧ a = b
  | stop _ => True
  | code s info => Markup.Bare s ∧ Markup.Bare info ∧ a = b
  | title c h => c.Bare ∧ (∀ s ∈ h.anchor.toList, Markup.Bare s) ∧ a = [']', ')'] ∧ b = []
  | anchor page name => Markup.Bare page ∧ Markup.Bare name ∧ a = b
  | refer c n | link c n _ => c.Bare ∧ n.Bare ∧ a = b
  | mark c id => c.Bare ∧ Markup.Bare id ∧ a = b
  | image .. | passage _ => a = b

/-- Steps that turn what is awaited, each into what is awaited in front of the next. -/
inductive Chain : List Char → List Step → List Char → Prop
  | nil (a : List Char) : Chain a [] a
  | cons {s : Step} {rest : List Step} {a b c : List Char} (hs : s.Turns a b)
    (hrest : Chain b rest c) : Chain a (s :: rest) c

namespace Chain

variable {a b c : List Char} {ss ts : List Step}

/-- Two chains make one where what the first leaves awaited is what the second starts with. -/
theorem append (hs : Chain a ss b) (ht : Chain b ts c) : Chain a (ss ++ ts) c := by
  induction hs with
  | nil => exact ht
  | cons hs _ ih => exact .cons hs (ih ht)

/-- Markup does to the awaited brackets what reading it comes to. -/
theorem markup (a b : List Char) {s : String} (hrest : Chain b ss c)
    (h : Markup.Turns a b s := by exact fun _ => rfl) : Chain a (.markup s :: ss) c :=
  .cons h hrest

/-- Markup without brackets of its own. -/
theorem still {s : String} (h : Markup.Bare s) (hrest : Chain a ss c) :
    Chain a (.markup s :: ss) c :=
  .cons (.bare h a) hrest

/-- Passages leave awaited what was, so that the chain goes on behind them. -/
theorem passage {t : Passage} (hrest : Chain a ss c) : Chain a (.passage t :: ss) c :=
  .cons rfl hrest

theorem literal {s : String} (h : Markup.Bare s) (hrest : Chain a ss c) :
    Chain a (.literal s :: ss) c :=
  .cons ⟨h, rfl⟩ hrest

/-- Behind a fault nothing is written. -/
theorem stop (f : Fault) : Chain a [.stop f] c := .cons trivial (.nil c)

/-- Inline code opens a call and closes it, whatever else is awaited. -/
theorem codeInline {code : String} (h : Markup.Bare code) (a : List Char) :
    Chain a (codeInline code) a :=
  .markup a (')' :: a) (.literal h (.markup (')' :: a) a (.nil a)))

/-- The bullets that keep a place have no brackets. -/
theorem bullets (depth level : Nat) (a : List Char) : Chain a (bullets depth level) a := by
  rw [Step.bullets]
  induction List.range' (depth + 1) (level - (depth + 1)) with
  | nil => exact .nil a
  | cons missing rest ih =>
    exact .still ((Markup.Bare.repeated (by decide) _).append (by decide)) ih

/-- The link to the source of a body is followed by a text in brackets. -/
theorem source {context : Context} (hc : context.Bare) {tree : Node} {url : Option String}
    (h : (Node.body tree url).Bare) : Chain [] (source context tree url) [] := by
  cases url with
  | none => exact .nil []
  | some url =>
    rw [Step.source]
    split
    · exact .markup [] [] (.cons ⟨hc, h, rfl⟩ (.markup [] [] (.nil [])))
    · exact .nil []

end Chain

end Step

section Rules

open Step (Chain)

/-- The steps of a node without brackets leave awaited what was. -/
theorem Node.steps_chain {c : Context} (hc : c.Bare) {n : Node} (h : n.Bare) :
    Chain [] (n.steps c) [] := by
  cases n with
  | document | listItem => exact .passage (.nil [])
  | heading level cs anchor =>
    obtain ⟨hanchor, -⟩ := List.forall_mem_append.mp h
    exact .markup [] [']', ')'] (.passage (.cons ⟨hc, hanchor, rfl, rfl⟩ (.nil [])))
      (headingOpening_turns c level)
  | paragraph cs =>
    have hend : Markup.Bare (if c.inBlock then "\n" else "\n\n") := by split <;> decide
    exact .passage (.still hend (.nil []))
  | list => exact .markup [] [] (.passage (.markup [] [] (.nil [])))
  | tableRow => exact .passage (.markup [] [] (.nil []))
  | quote | tableCell => exact .markup [] [']'] (.passage (.markup [']'] [] (.nil [])))
  | admonition category title cs =>
    obtain ⟨hcategory, htitle, -⟩ := (List.forall_mem_cons.mp h).imp_right List.forall_mem_cons.mp
    exact .markup [] [')'] (.literal htitle (.markup [')'] [']'] (.passage
      (.markup [']'] [] (.nil []))))) (admonitionOpening_turns hcategory)
  | codeBlock code info =>
    obtain ⟨hcode, hinfo⟩ := (List.forall_mem_cons.mp h).imp_right List.forall_mem_singleton.mp
    exact .cons ⟨hcode, hinfo, rfl⟩ (.nil [])
  | displayMath s | math s =>
    exact .markup [] [')'] (.literal (List.forall_mem_singleton.mp h) (.markup [')'] [] (.nil [])))
  | table columns rows =>
    exact .markup [] [')', ']'] (.passage (.markup [')', ']'] [] (.nil [])))
      (tableOpening_turns columns)
  | raw target s =>
    obtain ⟨-, hs⟩ := (List.forall_mem_cons.mp h).imp_right List.forall_mem_singleton.mp
    rw [Node.steps]
    split
    · exact .markup [] [] (.still hs (.markup [] [] (.nil [])))
    · exact .nil []
  | binding name category bodies page =>
    obtain ⟨hname, hcategory, hpage, -⟩ := (List.forall_mem_cons.mp h).imp_right fun h =>
      (List.forall_mem_cons.mp h).imp_right List.forall_mem_cons.mp
    have hplace : Markup.Bare (if page = "" then c.page else page) := by
      split
      · exact hc.page
      · exact hpage
    have hkind : Markup.Bare (if category = "" then "" else " -- " ++ category ++ ".") := by
      split
      · decide
      · exact .append (.append (by decide) hcategory) (by decide)
    have hgrid : Markup.Turns [] [']', ')'] "\n\n#grid(columns: (2em, 1fr), [], [\n" := fun _ => rfl
    exact (Chain.codeInline hname []).append (.markup [] [] (.cons ⟨hplace, hname, rfl⟩
      (.markup [] [']', ')'] (.passage (.markup [']', ')'] [] (.markup [] [] (.nil []))))
        (.append (.bare hkind []) hgrid))))
  | index entries =>
    rw [Node.steps]
    split
    · exact .markup [] [] (.nil [])
    · exact .markup [] [] (.passage (.markup [] [] (.nil [])))
  | contents entries minLevel =>
    rw [Node.steps]
    split
    · exact .markup [] [] (.nil [])
    · exact .passage (.nil [])
  | text s => exact .cons ⟨List.forall_mem_singleton.mp h, rfl⟩ (.nil [])
  | strong | emph => exact .markup [] [']', ')'] (.passage (.markup [']', ')'] [] (.nil [])))
  | code s =>
    exact .markup [] [] ((Chain.codeInline (List.forall_mem_singleton.mp h) []).append
      (.markup [] [] (.nil [])))
  | rule | lineBreak | softBreak => exact .markup [] [] (.nil [])
  | link destination cs =>
    rw [Node.steps]
    split
    · exact .passage (.nil [])
    · exact .cons ⟨hc, h, rfl⟩ (.nil [])
  | pageLink => exact .cons ⟨hc, h, rfl⟩ (.nil [])
  | image destination cs isLocal =>
    obtain ⟨hdestination, -⟩ := List.forall_mem_cons.mp h
    exact .markup [] [')', ')', ']'] (.cons rfl (.literal (.imagePath hc.page hdestination isLocal)
      (.markup [')', ')', ']'] [']', ')', ']'] (.passage (.markup [']', ')', ']'] [] (.nil []))))))
  | footnoteMark id => exact .cons ⟨hc, List.forall_mem_singleton.mp h, rfl⟩ (.nil [])
  | footnote => exact .nil []
  | body | indexEntry | contentsEntry => exact .stop _

/-- The steps of a passage without brackets leave awaited what was. -/
theorem Passage.steps_chain {t : Passage} (h : t.Bare) : Chain [] t.steps [] := by
  obtain ⟨hc, hn⟩ := h
  cases t with
  | node c n => exact Node.steps_chain hc (Node.bareAll_cons.mp hn).1
  | item c depth n =>
    rw [steps]
    split
    · split
      · exact .passage (.markup [] [] (.nil []))
      · exact .passage (.nil [])
    · exact .stop _
  | contentsOf c n =>
    rw [steps]
    split
    · exact .passage (.nil [])
    · exact .stop _
  | all c ns =>
    cases ns with
    | nil => exact .nil []
    | cons n rest => exact .passage (.passage (.nil []))
  | top c ns =>
    cases ns with
    | nil => exact .nil []
    | cons n rest =>
      rw [steps]
      refine Chain.append ?_ (.passage (.nil []))
      split
      · exact .passage (.nil [])
      · exact .markup [] [] (.passage (.markup [] [] (.nil [])))
  | items c depth ordered ns =>
    cases ns with
    | nil => exact .nil []
    | cons n rest => exact .still (.listMarker depth ordered) (.passage (.passage (.nil [])))
  | parts c depth further ns =>
    cases ns with
    | nil => exact .nil []
    | cons n rest =>
      cases n with
      | list ordered ns => exact .markup [] [] (.passage (.markup [] [] (.passage (.nil []))))
      | _ =>
        refine Chain.append ?_ (.passage (.passage (.nil [])))
        split
        · exact .still (.repeated (by decide) _) (.nil [])
        · exact .nil []
  | bodies c ns =>
    cases ns with
    | nil => exact .nil []
    | cons n rest =>
      obtain ⟨hn, -⟩ := Node.bareAll_cons.mp hn
      cases n with
      | body tree url =>
        have htree : Chain [] [.markup "\n", .passage (contentsOf c tree), .markup "\n"] [] :=
          .markup [] [] (.passage (.markup [] [] (.nil [])))
        exact (htree.append (.source hc hn)).append (.passage (.nil []))
      | _ => exact .markup [] [] (.stop _)
  | index c ns =>
    cases ns with
    | nil => exact .nil []
    | cons n rest =>
      obtain ⟨hn, -⟩ := Node.bareAll_cons.mp hn
      cases n with
      | indexEntry name page label =>
        have hlink :
            Chain [] [.markup "- ", .refer c (.indexEntry name page label), .markup "["] [']'] :=
          .markup [] [] (.cons ⟨hc, hn, rfl⟩ (.markup [] [']'] (.nil [']'])))
        exact (hlink.append (.codeInline (hn name List.mem_cons_self) [']'])).append
          (.markup [']'] [] (.passage (.nil [])))
      | _ => exact .stop _
  | contents c minLevel depth ns =>
    cases ns with
    | nil => exact .nil []
    | cons n rest =>
      obtain ⟨hn, -⟩ := Node.bareAll_cons.mp hn
      cases n with
      | contentsEntry page label level cs =>
        rw [steps]
        split
        · exact .passage (.nil [])
        · have hindent := (Markup.Bare.repeated (s := "  ") (by decide)
            ((level - minLevel + 1).toNat - 1)).append (t := "- ") (by decide)
          exact (Chain.bullets _ _ []).append (.still hindent (.cons ⟨hc, hn, rfl⟩
            (.markup [] [']'] (.passage (.markup [']'] [] (.passage (.nil [])))))))
      | heading level cs given =>
        rw [steps]
        split
        · exact .passage (.nil [])
        · exact (Chain.bullets _ _ []).append (.stop _)
      | _ => exact .stop _

end Rules

section Nodes

variable {r : Renderer} {expand : Context → List Node → Draft}

/-- What a step writes does to the awaited brackets what the step does. -/
theorem Step.draft_turns (hlabels : r.labels.Bare) (hlexers : r.lexers.Bare)
    (hexpand : ∀ c : Context, c.Bare → ∀ cs, Node.BareAll cs → Draft.Turns [] [] (expand c cs))
    {s : Step}
    {a b : List Char} (h : s.Turns a b)
    (hs : ∀ t ∈ s.passages, Draft.Turns [] [] (t.draft r expand)) :
    Draft.Turns a b (s.draft r expand) := by
  cases s with
  | markup s => exact .text a b h
  | prose s =>
    obtain ⟨h, rfl⟩ := h
    exact .bare (p := .prose s) h.escapeContent a
  | literal s =>
    obtain ⟨h, rfl⟩ := h
    exact .literal h a
  | stop f => exact .stop f
  | code s info =>
    obtain ⟨hcode, hinfo, rfl⟩ := h
    exact (Draft.Turns.codeBlock hlexers hcode hinfo).within a
  | image page destination isLocal =>
    obtain rfl : a = b := h
    exact .imageCheck r page destination isLocal a
  | title c heading =>
    obtain ⟨hc, hanchor, rfl, rfl⟩ := h
    rw [draft]
    split
    · exact .text _ _
    · exact (Draft.Turns.text _ []).seq ((Draft.Turns.anchor (.labelId _ hc.page
        (Markup.Bare.headingLabel hanchor))).seq (.text _ _))
  | anchor page name =>
    obtain ⟨hpage, hname, rfl⟩ := h
    exact (Draft.Turns.anchor (.labelId _ hpage hname)).within a
  | refer c n =>
    obtain ⟨hc, hn, rfl⟩ := h
    exact .ofExcept fun target htarget => (hn.destination hlabels hc.page htarget).within a
  | link c n text =>
    obtain ⟨hc, hn, rfl⟩ := h
    have htext := hs text (List.mem_singleton_self text)
    exact .ofExcept fun target htarget =>
      Draft.Turns.within ((hn.destination hlabels hc.page htarget).seq (htext.inside [']'])) a
  | mark c id =>
    obtain ⟨hc, hid, rfl⟩ := h
    refine Draft.Turns.within ?_ a
    rw [draft]
    cases hnote : c.notes.get? id with
    | none =>
      exact fun _ => (Draft.Turns.text [] [']']).seq ((Draft.Turns.bare (p := .prose id)
        hid.escapeContent _).seq (.text [']'] [])) rfl
    | some cs =>
      have hcs := hc.notes _ (Table.mem_of_get?_eq_some hnote)
      exact (hexpand c.block ⟨hc.page, hc.notes⟩ _ hcs.footnoteText).inside [']']
  | passage t =>
    obtain rfl : a = b := h
    exact (hs t (List.mem_singleton_self t)).within a

/-- What a passage without brackets writes leaves awaited what was. -/
theorem Passage.draft_turns (hlabels : r.labels.Bare) (hlexers : r.lexers.Bare)
    (hexpand : ∀ c : Context, c.Bare → ∀ cs, Node.BareAll cs → Draft.Turns [] [] (expand c cs))
    (t : Passage)
    (h : t.Bare) : Draft.Turns [] [] (t.draft r expand) := by
  have hsteps {a b : List Char} {ss : List Step} (hchain : Step.Chain a ss b)
      (hwithin : ∀ s ∈ ss, ∀ t ∈ s.passages, Draft.Turns [] [] (t.draft r expand)) :
      Draft.Turns a b (ofSteps r expand ss) := by
    induction hchain with
    | nil a => exact .nothing a
    | cons hs _ ih =>
      obtain ⟨hfirst, hrest⟩ := List.forall_mem_cons.mp hwithin
      exact (Step.draft_turns hlabels hlexers hexpand hs hfirst).seq (ih hrest)
  induction t with
  | rule t ih =>
    rw [draft_eq]
    refine hsteps (steps_chain h) fun s hs t' ht' => ?_
    have hmem : t' ∈ t.within := List.mem_flatMap.mpr ⟨s, hs, ht'⟩
    exact ih t' hmem ((hands_of_mem_within hmem).bare h)

end Nodes

/-- Nodes leave awaited what was, at any depth of footnotes. -/
theorem Renderer.draftUpTo_turns {r : Renderer} (hlabels : r.labels.Bare) (hlexers : r.lexers.Bare)
    (depth : Nat) (c : Context) (hc : c.Bare) (nodes : List Node) (h : Node.BareAll nodes) :
    Turns [] [] (r.draftUpTo depth c nodes) := by
  induction depth generalizing c nodes with
  | zero => exact .stop _
  | succ depth ih => exact Passage.draft_turns hlabels hlexers ih (.all c nodes) ⟨hc, h⟩

namespace Writing

/-- What writing a node adds to a session is well nested, provided that neither the node nor the
footnotes, the page or the index have a text with brackets, and no name that the highlighter has for
a language. -/
theorem render_wellNested {s t : Session} {n : Node} (hn : n.Bare) (hc : s.context.Bare)
    (hlabels : s.renderer.labels.Bare) (hlexers : s.renderer.lexers.Bare)
    (h : render n s = .ok () t) :
    ∃ added, t.text = s.text ++ added ∧ Markup.WellNested added.toList := by
  have hturns : Turns [] [] (s.renderer.node s.context n) :=
    Passage.draft_turns hlabels hlexers (Renderer.draftUpTo_turns hlabels hlexers _)
      (.node s.context n) ⟨hc, Node.bareAll_cons.mpr ⟨hn, nofun⟩⟩
  rw [render_eq_emit, emit] at h
  cases hok : (s.renderer.node s.context n).fault with
  | some f => rw [hok] at h; cases h
  | none =>
    rw [hok] at h
    cases h
    exact ⟨_, text_add s _, (hturns hok).wellNested⟩

/-- A session on a page with a footnote, whose book has a heading and a binding; the highlighter
knows one language. -/
def notedSession : Session where
  renderer :=
    { labels := ⟨"build/", true, [("api.md#fold", "fold")], [("guide.md", "aims")]⟩
      lexers := fun name =>
        if name = "hs" ∨ name = "haskell" then some ["haskell", "hs"] else none
      assets := none }
  context := .atPage "build/guide.md" 2 [("n", [.paragraph [.link "guide.md#" [.text "a note"]]])]
  written := [.markup "#outline("]

/-- A tree with a block of every kind that opens brackets. -/
def bracketedTree : Node := .document [
  .heading 1 [.strong [.text "Aims"]] none,
  .list true [.listItem [.paragraph [.footnoteMark "n", .code "x"], .list false [.listItem []]]],
  .quote [.admonition "tip" "Hint" [.table [some .center, none] [.tableRow [.tableCell []]]]],
  .binding "fold" "Function" [.body (.document [.codeBlock "fold x" "hs"]) (some "a/b.hs")]
    "api.md",
  .contents [.contentsEntry "guide.md" "aims" 3 [.emph [.text "Aims"]]] 1,
  .index [.indexEntry "fold" "api.md" "fold"],
  .image "/fig.png" [.math "y"] false,
  .paragraph [.pageLink "api.md" "Fold" [.text "fold"], .footnoteMark "m"]]

/-- A tree with every kind of bracket is written on a page with a footnote. -/
theorem render_wellNested_bracketedTree :
    bracketedTree.Bare ∧ notedSession.context.Bare ∧ notedSession.renderer.labels.Bare ∧
      notedSession.renderer.lexers.Bare ∧ ∃ t, render bracketedTree notedSession = .ok () t ∧
        ∃ added, t.text = notedSession.text ++ added ∧ Markup.WellNested added.toList := by
  have hn : bracketedTree.Bare := by decide
  have hc : notedSession.context.Bare := ⟨by decide, by decide⟩
  have hlabels : notedSession.renderer.labels.Bare := ⟨by decide, by decide⟩
  have hlexers : notedSession.renderer.lexers.Bare := by
    intro name names hnames first hfirst
    simp only [notedSession] at hnames
    split at hnames
    · cases hnames
      cases hfirst
      decide
    · cases hnames
  have hok : (notedSession.renderer.node notedSession.context bracketedTree).fault = none := by rfl
  obtain ⟨t, ht⟩ : ∃ t, render bracketedTree notedSession = .ok () t := by
    rw [render_eq_emit, emit, hok]
    exact ⟨_, rfl⟩
  exact ⟨hn, hc, hlabels, hlexers, t, ht, render_wellNested hn hc hlabels hlexers ht⟩

end Writing

end Folio
