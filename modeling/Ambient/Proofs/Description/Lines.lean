import Mathlib
import Ambient.Proofs.Description.Revision
import Ambient.Proofs.Prose.Wrap
import Ambient.Proofs.Text.Lines
import Ambient.Proofs.Text.Trim

/-!
# The lines of a description

A comment is made of the documentation and of lines that show a signature and an address.  The
documentation is cut into lines, whatever it holds, and wrapping keeps them lines, so it never brings a
line feed into a line of the comment.  Names, types and the address are taken over as they are; an entry
where these are `OneLine` has a comment of lines (`comment_of_returns`).
-/

namespace Ambient

namespace Signature

variable {s : Signature} {params : List TypeParam} {returns : Option TypeExpr} {arrow : Bool}

/-! ### Types in the text of a signature -/

lemma isInfix_namedText (name : Option Text) (optional : Bool) (type : Text) :
    type <:+: TypeExpr.namedText name optional type := by
  cases name with
  | none => exact List.infix_refl type
  | some name => exact (List.suffix_append _ type).isInfix

/-- A list of parameters shows the type of each of them. -/
lemma isInfix_paramListText {p : TypeParam} (hp : p ∈ params) :
    p.type.render <:+: TypeExpr.paramListText params := by
  have hrendered : TypeExpr.namedText p.name p.optional p.type.render ∈
      TypeExpr.renderParams params := by
    rw [TypeExpr.renderParams_eq_map]
    exact List.mem_map_of_mem hp
  exact (isInfix_namedText ..).trans (Text.isInfix_joinWith hrendered)

/-- A function shows the types of its parameters. -/
lemma isInfix_render_of_mem {p : TypeParam} (hp : p ∈ params) :
    p.type.render <:+: (TypeExpr.function params returns arrow).render := by
  have hlist := isInfix_paramListText hp
  rw [TypeExpr.render]
  cases returns with
  | none =>
    cases arrow with
    | true => exact hlist.trans ⟨['('], ") => void", rfl⟩
    | false => exact hlist.trans ⟨"fn(", ")", rfl⟩
  | some type =>
    cases arrow with
    | true => exact hlist.trans ⟨['('], ") => " ++ type.render, (List.append_assoc ..).symm⟩
    | false => exact hlist.trans ⟨"fn(", ") -> " ++ type.render, (List.append_assoc ..).symm⟩

lemma isInfix_render_of_returns (type : TypeExpr) :
    type.render <:+: (TypeExpr.function params (some type) arrow).render := by
  rw [TypeExpr.render]
  cases arrow with
  | true => exact (List.suffix_append _ _).isInfix
  | false => exact (List.suffix_append _ _).isInfix

/-- The type of a parameter is shown in whatever form a function has. -/
lemma isInfix_renderAfter_of_mem (lead : Text) (htype : s.type = .function params returns arrow)
    {p : TypeParam} (hp : p ∈ params) : p.type.render <:+: s.renderAfter lead := by
  have hlist := isInfix_paramListText hp
  have htree : p.type.render <:+: s.type.render := htype ▸ isInfix_render_of_mem hp
  have hplain : p.type.render <:+: lead ++ s.name ++ ": " ++ s.type.render :=
    htree.trans (List.suffix_append _ _).isInfix
  cases hform : s.form with
  | none => rwa [renderAfter.eq_def, hform]
  | some form =>
    cases form with
    | property => rwa [renderAfter.eq_def, hform]
    | constructor =>
      rw [renderAfter.eq_def, hform, htype]
      exact hlist.trans ⟨"constructor(", ")", rfl⟩
    | method =>
      rw [renderAfter.eq_def, hform, htype]
      exact hlist.trans ⟨lead ++ s.name ++ "(", ")" ++ returnsText returns, by simp⟩

/-- What a function returns is shown unless it is a constructor. -/
lemma isInfix_renderAfter_of_returns (lead : Text) {type : TypeExpr}
    (htype : s.type = .function params (some type) arrow) (hform : s.form ≠ some .constructor) :
    type.render <:+: s.renderAfter lead := by
  have htree : type.render <:+: s.type.render := htype ▸ isInfix_render_of_returns type
  have hplain : type.render <:+: lead ++ s.name ++ ": " ++ s.type.render :=
    htree.trans (List.suffix_append _ _).isInfix
  cases hform' : s.form with
  | none => rwa [renderAfter.eq_def, hform']
  | some form =>
    cases form with
    | property => rwa [renderAfter.eq_def, hform']
    | constructor => exact absurd hform' hform
    | method =>
      rw [renderAfter.eq_def, hform', htype]
      exact (List.suffix_append ": " type.render).isInfix.trans (List.suffix_append _ _).isInfix

end Signature

namespace Markdown

/-- Markdown on one line is one line. -/
lemma newline_not_mem_inline (html : Text) : '\n' ∉ inline html := by
  intro hmem
  rcases Text.mem_joinWith hmem with hspace | ⟨t, ht, hmem⟩
  · exact absurd hspace (by decide)
  · obtain ⟨l, hl, rfl⟩ := List.mem_map.mp (List.mem_filter.mp ht).1
    exact Text.newline_not_mem_lines _ l hl ((Text.trim_isInfix l).subset hmem)

end Markdown

namespace Description

variable {settings : Settings} {owner : Text} {e : Entry} {s : Signature}
  {withSample withSignature : Bool} {d : Description} {width : ℤ} {lead : Text} {b : Prose.Block}
  {blocks : List Prose.Block} {ls lines : List Text}

/-! ### The documentation -/

/-- Wrapping one line gives lines without line feeds. -/
lemma newline_not_mem_wrapLine {line : Text} (h : wrapLine width line = .ok ls)
    (hline : '\n' ∉ line) : ∀ l ∈ ls, '\n' ∉ l := by
  unfold wrapLine at h
  split at h
  · next hwrap =>
    obtain rfl := Except.ok.inj h
    exact Prose.newline_not_mem_softWrap? hwrap hline
  · cases h

/-- Lines that are wrapped are lines. -/
lemma newline_not_mem_wrapLines (h : wrapLines width lines = .ok ls)
    (hlines : ∀ l ∈ lines, '\n' ∉ l) : ∀ l ∈ ls, '\n' ∉ l := by
  obtain ⟨groups, hgroups, hls⟩ := Except.bind_eq_ok.mp h
  obtain rfl := Except.pure_eq_ok.mp hls
  intro l hl
  obtain ⟨group, hgroup, hl⟩ := List.mem_flatten.mp hl
  obtain ⟨line, hline, hwrap⟩ := exists_of_mem_forall₂ (Except.mapM_eq_ok.mp hgroups) hgroup
  exact newline_not_mem_wrapLine hwrap (hlines line hline) l hl

/-- The lines of a block hold no line feeds. -/
lemma newline_not_mem_blockLines (h : blockLines width lead b = .ok ls) : ∀ l ∈ ls, '\n' ∉ l := by
  unfold blockLines at h
  split_ifs at h
  · obtain rfl := Except.pure_eq_ok.mp h
    exact Text.newline_not_mem_lines b.text
  · exact newline_not_mem_wrapLines h (Text.newline_not_mem_lines _)

/-- What is put together of groups is lines of theirs and empty lines. -/
lemma mem_separated {groups : List (List Text)} {l : Text} (h : l ∈ bodyLines.separated groups) :
    l = [] ∨ ∃ g ∈ groups, l ∈ g := by
  fun_induction bodyLines.separated groups with
  | case1 => cases h
  | case2 g => exact Or.inr ⟨g, List.mem_cons_self, h⟩
  | case3 g groups _ ih =>
    rcases List.mem_append.mp h with h | h
    · exact Or.inr ⟨g, List.mem_cons_self, h⟩
    · rcases List.mem_cons.mp h with h | h
      · exact Or.inl h
      · exact (ih h).imp id fun ⟨g', hg', h⟩ => ⟨g', List.mem_cons_of_mem g hg', h⟩

/-- The documentation proper is cut into lines, whatever it holds. -/
lemma newline_not_mem_bodyLines (h : bodyLines width blocks = .ok ls) : ∀ l ∈ ls, '\n' ∉ l := by
  simp only [bodyLines, Except.bind_eq_ok, Except.pure_eq_ok] at h
  obtain ⟨prose, hprose, deprecations, hdeprecations, rfl⟩ := h
  intro l hl
  have hgroups : ∀ {lead blocks groups}, List.mapM (blockLines width lead) blocks = .ok groups →
      ∀ g ∈ groups, l ∈ g → '\n' ∉ l := by
    intro lead blocks groups hgroups g hg hlg
    obtain ⟨b, -, hb⟩ := exists_of_mem_forall₂ (Except.mapM_eq_ok.mp hgroups) hg
    exact newline_not_mem_blockLines hb l hlg
  rcases mem_separated hl with rfl | ⟨g, hg, hlg⟩
  · exact List.not_mem_nil
  · rcases List.mem_append.mp hg with hg | hg
    · exact hgroups hprose g hg hlg
    · exact hgroups hdeprecations g hg hlg

/-! ### Signature and address -/

/-- What a declaration takes over from an entry and its signature holds no line feed. -/
structure OneLine (e : Entry) (s : Option Signature) : Prop where
  name : '\n' ∉ e.name
  url : e.url.isPresent = true → '\n' ∉ e.url.display
  parameters : ∀ p ∈ e.parameters, '\n' ∉ p.name
  signature : ∀ s' ∈ s, '\n' ∉ s'.renderAfter []

/-- The line about a parameter is one line if its name and its type are. -/
lemma newline_not_mem_parameterTag {params : List TypeParam} {p : ParameterDoc}
    (hname : '\n' ∉ p.name) (htypes : ∀ q ∈ params, '\n' ∉ q.type.render) :
    '\n' ∉ parameterTag params p := by
  unfold parameterTag
  extract_lets type
  have htype : '\n' ∉ type := by
    dsimp only [type]
    split
    · next q hq => exact htypes q (List.mem_reverse.mp (List.mem_of_find?_eq_some hq))
    · decide
  have hlead : '\n' ∉ ("@param " : Text) ++ '{' :: type :=
    List.not_mem_append (by decide) (List.not_mem_cons_of_ne_of_not_mem (by decide) htype)
  have hnamed : '\n' ∉ '}' :: ' ' :: p.name ++ (" - " : Text) :=
    List.not_mem_append (by simpa using hname) (by decide)
  intro hmem
  replace hmem := (Text.trimEnd_isPrefix _).subset hmem
  rw [List.append_assoc _ ('}' :: ' ' :: p.name)] at hmem
  exact List.not_mem_append (List.not_mem_append hlead hnamed)
    (Markdown.newline_not_mem_inline p.doc) hmem

/-- The line about what a function returns is one line if its type is. -/
lemma newline_not_mem_returnsTag {type : TypeExpr} (doc : Text) (h : '\n' ∉ type.render) :
    '\n' ∉ returnsTag type doc := by
  have hlead : '\n' ∉ ("@returns " : Text) ++ '{' :: type.render :=
    List.not_mem_append (by decide) (List.not_mem_cons_of_ne_of_not_mem (by decide) h)
  have hdoc : '\n' ∉ '}' :: ' ' :: Markdown.inline doc := by
    simpa using Markdown.newline_not_mem_inline doc
  intro hmem
  exact List.not_mem_append hlead hdoc ((Text.trimEnd_isPrefix _).subset hmem)

/-- The lines about a signature are lines. -/
lemma newline_not_mem_signatureTags (h : OneLine e (some s)) :
    ∀ l ∈ signatureTags e s, '\n' ∉ l := by
  unfold signatureTags
  split
  · next params returns arrow htype =>
    intro l hl
    rcases List.mem_append.mp hl with hl | hl
    · obtain ⟨p, hp, rfl⟩ := List.mem_map.mp hl
      refine newline_not_mem_parameterTag (h.parameters p hp) fun q hq hmem => ?_
      have htext := Signature.isInfix_renderAfter_of_mem [] htype hq
      exact h.signature s rfl (htext.subset hmem)
    · split at hl
      · next type =>
        split_ifs at hl with hform
        · cases hl
        · obtain rfl := List.mem_singleton.mp hl
          have hconstructor : s.form ≠ some .constructor := by
            intro heq
            simp [heq] at hform
          refine newline_not_mem_returnsTag e.returnsDoc fun hmem => ?_
          have htext := Signature.isInfix_renderAfter_of_returns [] htype hconstructor
          exact h.signature s rfl (htext.subset hmem)
      · cases hl
  · simp

/-- The lines about an entry of one line hold no line feeds. -/
lemma newline_not_mem_tags {s : Option Signature} (h : OneLine e s) :
    ∀ l ∈ tags e s withSignature, '\n' ∉ l := by
  intro l hl
  rcases List.mem_append.mp hl with hl | hl
  · split_ifs at hl
    · cases s with
      | none => cases hl
      | some s => exact newline_not_mem_signatureTags h l hl
    · cases hl
  · split_ifs at hl with hurl
    · obtain rfl := List.mem_singleton.mp hl
      intro hmem
      rcases List.mem_append.mp hmem with hmem | hmem
      · exact absurd hmem (by decide)
      · exact h.url hurl hmem
    · cases hl

/-! ### The comment -/

/-- The comment of an entry is made of lines, if what is taken over from the entry is. -/
lemma comment_of_returns (h : (ofEntry settings owner e withSample withSignature).Returns d)
    (hone : OneLine e d.signature) :
    ∃ ls, d.comment = Comment.ofLines ls ∧ ∀ l ∈ ls, '\n' ∉ l := by
  obtain ⟨body, behind, hbody, hbehind, hcomment⟩ := (returns_ofEntry.mp h).comment
  exact ⟨body ++ behind, hcomment, List.forall_mem_append.mpr
    ⟨newline_not_mem_bodyLines hbody, newline_not_mem_wrapLines hbehind (newline_not_mem_tags hone)⟩⟩

end Description

end Ambient
