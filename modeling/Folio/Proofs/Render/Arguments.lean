import Folio.Proofs.Draft.InOrder
import Folio.Proofs.Markup.Strings
import Folio.Proofs.Render.Prose

/-!
# String arguments of calls

A node that calls a function of the markup writes strings of its own between double quotes: code and
its language, formulas, titles, addresses, paths of images, names of bindings and labels. Each of
them is read back, up to the quote that the node writes behind it, as the string that is meant. The
one exception is the language of a block of code, which is written without escapes, and so is read
back only if it is plain.
-/

namespace Folio

open Draft Markup

/-- A string argument of a call. -/
inductive Argument
  /-- A text with its escapes. -/
  | escaped (payload : String)
  /-- A text as it stands. -/
  | bare (payload : String)

namespace Argument

/-- The text that is meant. -/
def payload : Argument → String
  | escaped s | bare s => s

/-- What is written between the quotes. -/
def inside : Argument → String
  | escaped s => escapeString s
  | bare s => s

/-- Whether an argument is read back behind its opening quote, up to the quote that is written
behind it. -/
def IsRead (a : Argument) : Prop :=
  ∀ after, string? false (a.inside.toList ++ '"' :: after) = some (a.payload.toList, after)

/-- A text with its escapes is read back. -/
theorem isRead_escaped (s : String) : (escaped s).IsRead :=
  string?_escapeString s

/-- A text as it stands is read back if it is plain. -/
theorem isRead_bare_iff {s : String} : (bare s).IsRead ↔ IsPlain s.toList :=
  ⟨fun h => (string?_eq_some_iff_isPlain _ _).mp (h []),
    fun h after => (string?_eq_some_iff_isPlain _ after).mpr h⟩

end Argument

/-- A part of what a node writes. -/
inductive CallPart
  /-- Markup of the node itself. -/
  | call (markup : String)
  /-- A string argument in its quotes. -/
  | argument (a : Argument)
  /-- What the node holds: its children, and whatever else stands in a content block. -/
  | content (d : Draft)

namespace CallPart

/-- What is written for a part. -/
def draft : CallPart → Draft
  | call s => markup s
  | argument a => markup ("\"" ++ a.inside ++ "\"")
  | content d => d

/-- Whether a part has no double quotes but those around a string argument that is read back. -/
def IsSound : CallPart → Prop
  | call s => '"' ∉ s.toList
  | argument (.bare s) => IsPlain s.toList
  | argument (.escaped _) | content _ => True

instance : (p : CallPart) → Decidable p.IsSound
  | call s => inferInstanceAs (Decidable ('"' ∉ s.toList))
  | argument (.bare s) => inferInstanceAs (Decidable (IsPlain s.toList))
  | argument (.escaped _) | content _ => inferInstanceAs (Decidable True)

end CallPart

/-- Parts one after the other. -/
def ofParts (parts : List CallPart) : Draft := inOrder (parts.map CallPart.draft)

theorem ofParts_nil : ofParts [] = empty := rfl

theorem ofParts_cons (p : CallPart) (rest : List CallPart) :
    ofParts (p :: rest) = p.draft >> ofParts rest := rfl

/-- Parts in two groups make up the one group and then the other. -/
theorem ofParts_append (a b : List CallPart) : ofParts (a ++ b) = ofParts a >> ofParts b := by
  rw [ofParts, List.map_append, inOrder_append]
  rfl

/-! ### The parts of a node -/

/-- Code set inline. -/
def codeParts (code : String) : List CallPart :=
  [.call "#raw(", .argument (.escaped code), .call ", block: false)"]

/-- The place that a label names. -/
def anchorParts (id : LabelId) : List CallPart :=
  [.call "#label(", .argument (.escaped id.text), .call ")"]

/-- A link up to its text. -/
def linkParts : Target → List CallPart
  | .label id => [.call "#link(label(", .argument (.escaped id.text), .call "))"]
  | .address url => [.call "#link(", .argument (.escaped url), .call ")"]

/-- A link to a target that may not be found. -/
def linkedParts (target : Except Fault Target) (text : Draft) : List CallPart :=
  match target with
  | .ok target => linkParts target ++ [.call "[", .content text, .call "]"]
  | .error f => [.content (stop f)]

/-- The link to the source of a documentation body. -/
def sourceParts : Option String → List CallPart
  | some url =>
    if url = "" then [] else .call "\n" :: linkParts (.address url) ++ [.call "[`source`]\n\n"]
  | none => []

variable (r : Renderer) (expand : Context → List Node → Draft)

/-- Documentation bodies. -/
def bodyParts (c : Context) : List Node → List CallPart
  | [] => []
  | .body tree source :: rest =>
    .call "\n" :: .content (draftContentsOf r expand c tree) :: .call "\n" ::
      (sourceParts source ++ bodyParts c rest)
  | _ :: _ => [.call "\n", .content (stop .misplaced)]

/-- The entries of an index. -/
def indexParts : List Node → List CallPart
  | [] => []
  | .indexEntry name page label :: rest =>
    .call "- " :: linkParts (.label (r.labels.id page label)) ++
      .call "[" :: codeParts name ++ .call "]\n" :: indexParts rest
  | _ :: _ => [.content (stop .misplaced)]

/-- The entries of a table of contents below an entry at some depth. -/
def contentsParts (c : Context) (minLevel : Int) (depth : Nat) : List Node → List CallPart
  | [] => []
  | .contentsEntry page label level cs :: rest =>
    let level := (level - minLevel + 1).toNat
    if level = 0 then contentsParts c minLevel depth rest
    else
      .content (placeholders depth level) :: .call (Text.repeated (level - 1) "  " ++ "- ") ::
        linkParts (.label (r.labels.id page label)) ++
        .call "[" :: .content (draftAll r expand c cs) :: .call "]\n" ::
        contentsParts c minLevel level rest
  | .heading level _ _ :: rest =>
    let level := (level - minLevel + 1).toNat
    if level = 0 then contentsParts c minLevel depth rest
    else [.content (placeholders depth level >> stop .misplaced)]
  | _ :: _ => [.content (stop .misplaced)]

/-- The parts of a node: for each kind that writes strings of its own, its calls with the strings
that are meant, and for any other kind nothing but what the node holds. -/
def nodeParts (c : Context) : Node → List CallPart
  | .code code => .call " " :: codeParts code ++ [.call " "]
  | .math source => [.call "#mi(", .argument (.escaped source), .call ")"]
  | .displayMath source => [.call "\n#mitex(", .argument (.escaped source), .call ")\n\n"]
  | .codeBlock code info =>
    if Text.trim info = "math typst" then [.content (codeBlock r.lexers code info)]
    else [.call "\n#raw(", .argument (.escaped code), .call ", block: true, lang: ",
      .argument (.bare (Language.ofInfo r.lexers info)), .call ")\n"]
  | .admonition category title cs =>
    let kind := if admonitionKinds.contains category then category else "default"
    [.call "#admonition(type: ", .argument (.bare kind), .call ", title: ",
      .argument (.escaped title), .call ")[\n", .content (draftAll r expand c.block cs),
      .call "]\n"]
  | .link destination cs =>
    if c.inHeading then [.content (draftAll r expand c cs)]
    else linkedParts (linkTarget r.labels c.page destination) (draftAll r expand c cs)
  | .pageLink page fragment cs =>
    linkedParts ((r.labels.resolve page fragment).map .label) (draftAll r expand c cs)
  | .image destination cs isLocal => [
      .call "#align(center)[\n#figure(\nimage(\n",
      .content (imageCheck r c.page destination isLocal),
      .argument (.escaped (imagePath c.page destination isLocal)), .call ", width: 100%, fit: ",
      .argument (.bare "contain"), .call "),\ncaption: [\n",
      .content (draftAll r expand c.block cs), .call "])]\n"]
  | .index entries =>
    if entries.isEmpty then [.call "\n"]
    else .call "\n\n" :: indexParts r entries ++ [.call "\n\n"]
  | .contents entries minLevel =>
    if entries.isEmpty then [.call "\n"] else contentsParts r expand c minLevel 1 entries
  | .binding name category bodies page =>
    codeParts name ++ .call " " ::
      anchorParts (r.labels.id (if page = "" then c.page else page) name) ++
      .content (markup (if category = "" then "" else " -- " ++ category ++ ".")) ::
      .call "\n\n#grid(columns: (2em, 1fr), [], [\n" ::
      bodyParts r expand { c with inDocs := true } bodies ++ [.call "])", .call "\n"]
  | .heading level cs anchor =>
    .call ("#heading(level: " ++ toString (headingLevel c level) ++ ", [") ::
      .content (draftAll r expand { c with inHeading := true } cs) ::
      if c.inDocs then [.call "])\n"]
      else .call "]) " ::
        anchorParts (r.labels.id c.page (Heading.label ⟨level, cs, anchor⟩)) ++ [.call "\n\n"]
  | node => [.content (draftNode r expand c node)]

/-! ### What is written -/

/-- What a node holds is a part of its own. -/
theorem sameText_content (d : Draft) : SameText d (ofParts [.content d]) := by
  rw [ofParts_cons, ofParts_nil, seq_empty]
  exact .refl d

/-- An escaped string is an argument. -/
theorem sameText_escaped (s : String) :
    SameText (literal s) (CallPart.argument (.escaped s)).draft :=
  ⟨(text_ofPiece _).trans (text_markup _).symm, rfl, rfl⟩

/-- An argument as it stands may be cut out of the markup around it. -/
theorem sameText_bare (front s back : String) {d d' : Draft} (h : SameText d d') :
    SameText (markup (front ++ "\"" ++ s ++ ("\"" ++ back)) >> d)
      (markup front >> (CallPart.argument (.bare s)).draft >> markup back >> d') := by
  have hcut : front ++ "\"" ++ s ++ ("\"" ++ back) = front ++ ("\"" ++ s ++ "\"" ++ back) := by
    simp only [String.append_assoc]
  rw [hcut]
  exact (SameText.cut front _ (.refl d)).trans (.behind (.cut _ back h))

/-- A single piece around a string argument. -/
theorem sameText_piece {p : Piece} {front back s : String}
    (h : p.written = front ++ literalText s ++ back) :
    SameText (ofPiece p) (ofParts [.call front, .argument (.escaped s), .call back]) := by
  refine ⟨?_, rfl, rfl⟩
  change _ = (markup front >> markup (literalText s) >> markup back >> empty).text
  rw [text_seq rfl, text_seq rfl, seq_empty, text_ofPiece, h]
  simp only [text_markup, String.append_assoc]

/-- The call that sets a label has one argument, which is escaped. -/
theorem sameText_anchor (id : LabelId) :
    SameText (ofPiece (.anchor id)) (ofParts (anchorParts id)) := sameText_piece rfl

/-- The call of a link has its address or its label for an argument, escaped. -/
theorem sameText_link (target : Target) :
    SameText (ofPiece (.link target)) (ofParts (linkParts target)) := by
  cases target <;> exact sameText_piece rfl

/-- A link is the call and its text, or the fault of a target that is not known. -/
theorem sameText_linked (target : Except Fault Target) (d : Draft) :
    SameText (ofExcept target fun target => ofPiece (.link target) >> markup "[" >> d >> markup "]")
      (ofParts (linkedParts target d)) := by
  cases target with
  | error f => exact sameText_content (stop f)
  | ok target =>
    rw [linkedParts, ofParts_append]
    exact (sameText_link target).seq (.refl _)

/-- A string argument with its escapes between the markup around it. -/
theorem sameText_around (front s back : String) :
    SameText (markup front >> literal s >> markup back)
      (ofParts [.call front, .argument (.escaped s), .call back]) := by
  simp only [ofParts_cons, ofParts_nil, seq_empty]
  exact .behind ((sameText_escaped s).seq (.refl _))

/-- Inline code has one argument, which is escaped. -/
theorem sameText_code (code : String) : SameText (inlineCode code) (ofParts (codeParts code)) :=
  sameText_around ..

/-- The link to a source has the address for an argument. -/
theorem sameText_source (url : String) :
    SameText (when (url ≠ "")
        (markup "\n" >> ofPiece (.link (.address url)) >> markup "[`source`]\n\n"))
      (ofParts (sourceParts (some url))) := by
  rw [sourceParts]
  split
  · next hurl =>
    rw [hurl]
    exact .refl _
  · next hurl =>
    rw [when, if_pos (decide_eq_true hurl)]
    simp only [List.cons_append, ofParts_cons, ofParts_append, ofParts_nil, seq_empty]
    exact .behind ((sameText_link _).seq (.refl _))

/-- Bodies are cut into calls, their documentation and their sources. -/
theorem sameText_bodies (c : Context) (bodies : List Node) :
    SameText (draftBodies r expand c bodies) (ofParts (bodyParts r expand c bodies)) := by
  induction bodies with
  | nil =>
    rw [draftBodies, bodyParts]
    exact .refl _
  | cons n rest ih =>
    cases n with
    | body tree source =>
      rw [bodyParts]
      simp only [ofParts_cons, ofParts_append]
      -- The rule for a body tells apart whether its source is known.
      cases source with
      | none =>
        exact .behind (.behind (.behind ((SameText.refl empty).seq ih)))
      | some url =>
        rw [draftBodies]
        exact .behind (.behind (.behind ((sameText_source url).seq ih)))
    | _ => exact .behind (sameText_content _)

/-- An index is cut into a link and inline code for each entry. -/
theorem sameText_index (entries : List Node) :
    SameText (draftIndex r expand entries) (ofParts (indexParts r entries)) := by
  induction entries with
  | nil =>
    rw [draftIndex, indexParts]
    exact .refl _
  | cons n rest ih =>
    cases n with
    | indexEntry name page label =>
      rw [draftIndex, indexParts]
      simp only [List.cons_append, ofParts_cons, ofParts_append]
      exact .behind ((sameText_link _).seq (.behind ((sameText_code name).seq (.behind ih))))
    | _ => exact sameText_content _

/-- A table of contents is cut into a link and a text for each entry. -/
theorem sameText_contents (c : Context) (minLevel : Int) (entries : List Node) (depth : Nat) :
    SameText (draftContents r expand c minLevel depth entries)
      (ofParts (contentsParts r expand c minLevel depth entries)) := by
  induction entries generalizing depth with
  | nil =>
    rw [draftContents, contentsParts]
    exact .refl _
  | cons n rest ih =>
    cases n with
    | contentsEntry page label level cs =>
      rw [draftContents, contentsParts]
      split
      · exact ih depth
      · simp only [List.cons_append, ofParts_cons, ofParts_append]
        exact .behind (.behind ((sameText_link _).seq
          (.behind (.behind (.behind (ih _))))))
    | heading level cs anchor =>
      rw [draftContents, contentsParts]
      split
      · exact ih depth
      · exact sameText_content _
    | _ => exact sameText_content _

/-- A node writes its parts. -/
theorem sameText_node (c : Context) (n : Node) :
    SameText (draftNode r expand c n) (ofParts (nodeParts r expand c n)) := by
  cases n with
  | code s =>
    rw [draftNode, nodeParts]
    simp only [List.cons_append, ofParts_cons, ofParts_append, ofParts_nil, seq_empty]
    exact .behind ((sameText_code s).seq (.refl _))
  | math source | displayMath source =>
    rw [draftNode, nodeParts]
    exact sameText_around ..
  | codeBlock s info =>
    rw [draftNode, nodeParts]
    split
    · exact sameText_content _
    · next hinfo =>
      rw [codeBlock, if_neg hinfo]
      have hlanguage := sameText_bare ", block: true, lang: " (Language.ofInfo r.lexers info) ")\n"
        (.refl empty)
      simp only [seq_empty] at hlanguage
      simp only [ofParts_cons, ofParts_nil, seq_empty]
      exact .behind ((sameText_escaped s).seq hlanguage)
  | admonition category title cs =>
    rw [draftNode, nodeParts]
    simp only [ofParts_cons, ofParts_nil, seq_empty]
    exact sameText_bare "#admonition(type: " _ ", title: " ((sameText_escaped title).seq (.refl _))
  | link destination cs =>
    rw [draftNode, nodeParts]
    split
    · exact sameText_content _
    · exact sameText_linked ..
  | pageLink page fragment cs =>
    have hlinked := sameText_linked ((r.labels.resolve page fragment).map .label)
      (draftAll r expand c cs)
    rw [ofExcept_map] at hlinked
    rw [draftNode, nodeParts]
    exact hlinked
  | image destination cs isLocal =>
    rw [draftNode, nodeParts]
    simp only [ofParts_cons, ofParts_nil, seq_empty]
    exact .behind (.behind ((sameText_escaped _).seq
      (sameText_bare ", width: 100%, fit: " "contain" "),\ncaption: [\n" (.refl _))))
  | index entries =>
    rw [draftNode, nodeParts]
    split
    · exact .refl _
    · simp only [List.cons_append, ofParts_cons, ofParts_append, ofParts_nil, seq_empty]
      exact .behind ((sameText_index r expand entries).seq (.refl _))
  | contents entries minLevel =>
    rw [draftNode, nodeParts]
    split
    · exact .refl _
    · exact sameText_contents r expand c minLevel entries 1
  | binding name category bodies page =>
    rw [draftNode, nodeParts, bindingAround]
    simp only [List.cons_append, List.append_assoc, ofParts_cons, ofParts_append, ofParts_nil,
      seq_empty, Draft.seq_assoc]
    exact (sameText_code name).seq (.behind ((sameText_anchor _).seq
      (.cut _ _ ((sameText_bodies r expand _ bodies).seq (.refl _)))))
  | heading level cs anchor =>
    rw [draftNode, nodeParts]
    split
    · simp only [ofParts_cons, ofParts_nil, seq_empty]
      exact .refl _
    · simp only [List.cons_append, ofParts_cons, ofParts_append, ofParts_nil, seq_empty]
      exact .behind (.behind (.behind ((sameText_anchor _).seq (.refl _))))
  | _ => exact sameText_content _

/-! ### How it is read -/

variable {r expand}

/-- Whether all of some parts are sound. -/
def SoundParts (parts : List CallPart) : Prop := ∀ p ∈ parts, p.IsSound

namespace SoundParts

variable {parts others : List CallPart}

theorem nil : SoundParts [] := nofun

theorem cons {p : CallPart} (hp : p.IsSound) (h : SoundParts parts) : SoundParts (p :: parts) :=
  List.forall_mem_cons.mpr ⟨hp, h⟩

/-- Parts in two groups are sound if those of either group are. -/
theorem append (h : SoundParts parts) (ho : SoundParts others) : SoundParts (parts ++ others) :=
  List.forall_mem_append.mpr ⟨h, ho⟩

/-- Markup as it stands has no double quote. -/
theorem call (h : SoundParts parts) (s : String) (hs : '"' ∉ s.toList) :
    SoundParts (.call s :: parts) := cons hs h

/-- An escaped argument is always sound. -/
theorem escaped (h : SoundParts parts) (s : String) :
    SoundParts (.argument (.escaped s) :: parts) := cons trivial h

/-- What is written by the rules is looked at by itself. -/
theorem content (h : SoundParts parts) (d : Draft) : SoundParts (.content d :: parts) :=
  cons trivial h

/-- Nothing follows the last piece of markup. -/
theorem last (s : String) (hs : '"' ∉ s.toList) : SoundParts [.call s] := cons hs nil

/-- Nothing but what the node holds. -/
theorem held (d : Draft) : SoundParts [.content d] := cons trivial nil

/-- A string argument between two pieces of markup. -/
theorem around {front back : String} (h : ∀ s ∈ [front, back], '"' ∉ s.toList) (s : String) :
    SoundParts [.call front, .argument (.escaped s), .call back] :=
  ((last back (h back (by simp))).escaped s).call front (h front (by simp))

/-- The call around inline code has no quotes but those of its argument. -/
theorem code (s : String) : SoundParts (codeParts s) := around (by decide) s

/-- The call around a label has no quotes but those of its argument. -/
theorem anchor (id : LabelId) : SoundParts (anchorParts id) := around (by decide) id.text

/-- The call of a link has no quotes but those of its argument. -/
theorem link (target : Target) : SoundParts (linkParts target) := by
  cases target <;> exact around (by decide) _

/-- The text of a link is no argument. -/
theorem linked (target : Except Fault Target) (d : Draft) : SoundParts (linkedParts target d) := by
  cases target with
  | error f => exact held _
  | ok target => exact (link target).append (((last _ (by decide)).content d).call _ (by decide))

/-- The call of a source has no quotes but those of its argument. -/
theorem source (url : Option String) : SoundParts (sourceParts url) := by
  cases url with
  | none => exact nil
  | some url =>
    rw [sourceParts]
    split
    · exact nil
    · exact ((link _).append (last _ (by decide))).call _ (by decide)

/-- Every body is sound, whatever it documents. -/
theorem bodies (c : Context) (ns : List Node) : SoundParts (bodyParts r expand c ns) := by
  induction ns with
  | nil => exact nil
  | cons n rest ih =>
    cases n with
    | body tree url =>
      exact ((((source url).append ih).call _ (by decide)).content _).call _ (by decide)
    | _ => exact (held _).call _ (by decide)

/-- Every entry of an index is sound, whatever it names. -/
theorem index (ns : List Node) : SoundParts (indexParts r ns) := by
  induction ns with
  | nil => exact nil
  | cons n rest ih =>
    cases n with
    | indexEntry name page label =>
      have hlink := (link (.label (r.labels.id page label))).call "- " (by decide)
      have hname := (code name).call "[" (by decide)
      exact (hlink.append hname).append (ih.call "]\n" (by decide))
    | _ => exact held _

/-- The indentation of a bullet has no double quote. -/
theorem isSound_bullet (n : Nat) : (CallPart.call (Text.repeated n "  " ++ "- ")).IsSound := by
  have hindent : '"' ∉ (Text.repeated n "  ").toList := by
    induction n with
    | zero => decide
    | succ n ih =>
      rw [Text.repeated, String.toList_append]
      exact List.not_mem_append (by decide) ih
  rw [CallPart.IsSound, String.toList_append]
  exact List.not_mem_append hindent (by decide)

/-- Every entry of a table of contents is sound, at any level. -/
theorem contents (c : Context) (minLevel : Int) (ns : List Node) (depth : Nat) :
    SoundParts (contentsParts r expand c minLevel depth ns) := by
  induction ns generalizing depth with
  | nil => exact nil
  | cons n rest ih =>
    cases n with
    | contentsEntry page label level cs =>
      rw [contentsParts]
      split
      · exact ih depth
      · exact (SoundParts.content (.cons (isSound_bullet _) (link _)) _).append
          ((((ih _).call "]\n" (by decide)).content _).call "[" (by decide))
    | heading level cs anchor =>
      rw [contentsParts]
      split
      · exact ih depth
      · exact held _
    | _ => exact held _

end SoundParts

/-- Markup of a heading has no double quote. -/
theorem isSound_heading (c : Context) (level : Int) :
    (CallPart.call ("#heading(level: " ++ toString (headingLevel c level) ++ ", [")).IsSound := by
  obtain ⟨hlow, hhigh⟩ := Place.headingLevel_bounds c level
  generalize headingLevel c level = n at hlow hhigh
  interval_cases n <;> decide

/-- The kinds of admonition are plain. -/
theorem isSound_admonitionKind (category : String) :
    (CallPart.argument (.bare (if admonitionKinds.contains category then category
      else "default"))).IsSound := by
  rw [CallPart.IsSound]
  have hkinds : ∀ kind ∈ admonitionKinds, IsPlain kind.toList := by decide
  split
  · next hknown => exact hkinds category (List.contains_iff_mem.mp hknown)
  · decide

/-- All parts of a node are sound, but for the language of a block of code. -/
theorem isSound_of_mem_nodeParts {c : Context} {n : Node} {p : CallPart}
    (hp : p ∈ nodeParts r expand c n) :
    p.IsSound ∨ ∃ code info, n = .codeBlock code info ∧
      p = .argument (.bare (Language.ofInfo r.lexers info)) := by
  have hsound (h : SoundParts (nodeParts r expand c n)) : p.IsSound ∨ ∃ code info,
      n = .codeBlock code info ∧ p = .argument (.bare (Language.ofInfo r.lexers info)) :=
    .inl (h p hp)
  cases n with
  | code s =>
    have hcode := (SoundParts.code s).append (SoundParts.last " " (by decide))
    exact hsound (hcode.call " " (by decide))
  | math source | displayMath source => exact hsound (SoundParts.around (by decide) source)
  | codeBlock s info =>
    rw [nodeParts] at hp
    split at hp
    · exact .inl (SoundParts.held _ p hp)
    · simp only [List.mem_cons, List.not_mem_nil, or_false] at hp
      rcases hp with rfl | rfl | rfl | rfl | rfl
      · exact .inl (by decide)
      · exact .inl trivial
      · exact .inl (by decide)
      · exact .inr ⟨s, info, rfl, rfl⟩
      · exact .inl (by decide)
  | admonition category title cs =>
    have hcontent := (SoundParts.last "]\n" (by decide)).content (draftAll r expand c.block cs)
    have htitle := ((hcontent.call ")[\n" (by decide)).escaped title).call ", title: " (by decide)
    exact hsound ((SoundParts.cons (isSound_admonitionKind category) htitle).call _ (by decide))
  | link destination cs =>
    refine hsound ?_
    rw [nodeParts]
    split
    · exact SoundParts.held _
    · exact .linked _ _
  | pageLink page fragment cs => exact hsound (.linked _ _)
  | image destination cs isLocal =>
    refine hsound ?_
    have hend := ((SoundParts.last "])]\n" (by decide)).content (draftAll r expand c.block cs)).call
      "),\ncaption: [\n" (by decide)
    have hfit : (CallPart.argument (.bare "contain")).IsSound := by decide
    have hpath := ((SoundParts.cons hfit hend).call ", width: 100%, fit: " (by decide)).escaped
      (imagePath c.page destination isLocal)
    exact (hpath.content _).call _ (by decide)
  | index entries =>
    refine hsound ?_
    rw [nodeParts]
    split
    · exact SoundParts.last _ (by decide)
    · exact ((SoundParts.index entries).append (SoundParts.last _ (by decide))).call _ (by decide)
  | contents entries minLevel =>
    refine hsound ?_
    rw [nodeParts]
    split
    · exact SoundParts.last _ (by decide)
    · exact .contents c minLevel entries 1
  | binding name category bodies page =>
    refine hsound ?_
    rw [nodeParts]
    have hlabel := SoundParts.anchor (r.labels.id (if page = "" then c.page else page) name)
    have hname := (SoundParts.code name).append (hlabel.call " " (by decide))
    have hend := (SoundParts.last "\n" (by decide)).call "])" (by decide)
    exact (hname.append (((SoundParts.bodies _ bodies).call _ (by decide)).content _)).append hend
  | heading level cs anchor =>
    refine hsound ?_
    rw [nodeParts]
    refine .cons (isSound_heading c level) (SoundParts.content ?_ _)
    split
    · exact SoundParts.last _ (by decide)
    · exact ((SoundParts.anchor _).append (SoundParts.last _ (by decide))).call _ (by decide)
  | _ => exact hsound (SoundParts.held _)

/-- The text of parts around a string argument. -/
theorem text_ofParts_argument {front back : List CallPart} {a : Argument}
    (h : (ofParts front).fault = none) :
    (ofParts (front ++ .argument a :: back)).text =
      (ofParts front).text ++ "\"" ++ a.inside ++ "\"" ++ (ofParts back).text := by
  rw [ofParts_append, text_seq h, ofParts_cons, CallPart.draft, text_seq rfl, text_markup]
  simp only [String.append_assoc]

variable (r expand)

/-- A node writes its parts: markup without a double quote, what it holds, and string arguments in
double quotes. From its opening quote on, an argument is read as the string that is meant, and ends
with the quote written behind it, unless it is the language of a block of code, which is read so
exactly if it is plain. -/
theorem arguments_read_iff (c : Context) (n : Node) :
    SameText (draftNode r expand c n) (ofParts (nodeParts r expand c n)) ∧
      (∀ s, .call s ∈ nodeParts r expand c n → '"' ∉ s.toList) ∧
      ∀ front a back, nodeParts r expand c n = front ++ .argument a :: back →
        ((ofParts front).fault = none → (draftNode r expand c n).text =
          (ofParts front).text ++ "\"" ++ a.inside ++ "\"" ++ (ofParts back).text) ∧
        (a.IsRead ↔ ∀ code info, n = .codeBlock code info →
          a = .bare (Language.ofInfo r.lexers info) →
          IsPlain (Language.ofInfo r.lexers info).toList) := by
  have htext := sameText_node r expand c n
  refine ⟨htext, fun s hs => ?_, fun front a back hparts => ⟨fun hfront => ?_, ?_⟩⟩
  · rcases isSound_of_mem_nodeParts hs with hsound | ⟨code, info, -, hlanguage⟩
    · exact hsound
    · cases hlanguage
  · rw [htext.text, hparts, text_ofParts_argument hfront]
  · have ha : .argument a ∈ nodeParts r expand c n := by
      rw [hparts]
      exact List.mem_append_right front List.mem_cons_self
    constructor
    · rintro hread code info - rfl
      exact Argument.isRead_bare_iff.mp hread
    · intro hlanguage
      cases a with
      | escaped s => exact Argument.isRead_escaped s
      | bare s =>
        refine Argument.isRead_bare_iff.mpr ?_
        rcases isSound_of_mem_nodeParts ha with hsound | ⟨code, info, hn, heq⟩
        · exact hsound
        · obtain rfl : s = Language.ofInfo r.lexers info :=
            Argument.bare.inj (CallPart.argument.inj heq)
          exact hlanguage code info hn rfl

/-- A double quote in the language of a block of code ends the argument early. -/
theorem language_ends_early :
    let r : Renderer := ⟨⟨"", false, [], []⟩, fun _ => none, none⟩
    let c := Context.atPage "guide.md" 1 []
    Language.ofInfo r.lexers "a\"b" = "a\"b" ∧
      (r.node c (.codeBlock "x" "a\"b")).text = "\n#raw(\"x\", block: true, lang: \"a\"b\")\n" ∧
      string? false "a\"b\")\n".toList = some ("a".toList, "b\")\n".toList) := by
  intro r c
  have hlanguage : Language.ofInfo r.lexers "a\"b" = "a\"b" := by decide +kernel
  refine ⟨hlanguage, ?_, rfl⟩
  rw [Renderer.node, draftNode, codeBlock, if_neg (by decide), hlanguage]
  rfl

end Folio
