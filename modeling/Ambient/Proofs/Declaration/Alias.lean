import Mathlib
import Ambient.Proofs.Declaration.Header
import Ambient.Proofs.Description.Lines

/-!
# Whole declarations under another name

A function or a variable may be declared again under another name.  Its declaration has one header of
its own and, if members or interfaces stand beside it, the header of a namespace of the same name
(`headers_of_ofSymbol`).  Renaming reaches the first of the two alone: the other name is declared with
the rest of the text as it was, namespace included, so a declaration without a namespace is declared
under the other name only, and one with a namespace goes on declaring the old name as well
(`headers_of_resolveAlias`).
-/

namespace Ambient

namespace Declaration

variable {settings : Settings} {s s' : Symbol} {d d' : Declaration} {ds : List Declaration}
  {name t u : Text}

/-! ### The headers of a function or a variable -/

/-- Whether a function or a variable has a namespace beside it. -/
def hasNamespace (d : Declaration) : Bool :=
  !d.interfaces.isEmpty || (d.kind = .functionKind && !d.members.isEmpty)

/-- The header of the namespace beside a function or a variable, if it has one. -/
def namespaceHeaders (d : Declaration) : List Text :=
  if d.hasNamespace then [header "namespace" d.name ++ [' ', '{']] else []

/-- Texts with an empty line between them have the headers of both. -/
lemma headers_append_blank (t u : Text) : headers (t ++ "\n\n" ++ u) = headers t ++ headers u := by
  have hblank : headers ('\n' :: u) = headers u := headers_append_newline [] u
  rw [List.append_assoc]
  exact (headers_append_newline t ('\n' :: u)).trans (congrArg (headers t ++ ·) hblank)

/-- The namespace with anything in it has one header, its own. -/
lemma headers_namespaceText (hname : '\n' ∉ d.name) {withMembers : Bool}
    (h : d.interfaces ≠ [] ∨ withMembers = true ∧ d.members ≠ []) :
    headers (d.namespaceText withMembers) = [header "namespace" d.name ++ [' ', '{']] := by
  have hopening : '\n' ∉ "declare namespace " ++ d.name := List.not_mem_append (by decide) hname
  have hdeclare : ("declare " : Text) <+: "declare namespace " ++ d.name := by
    rw [← header_namespace]
    exact isPrefix_header "namespace" d.name
  unfold namespaceText
  extract_lets members
  have hbody : (members ++ d.interfaces.map Interface.shown).isEmpty = false := by
    rw [List.isEmpty_eq_false_iff, ne_eq, List.append_eq_nil_iff, not_and_or]
    rcases h with hinterfaces | ⟨rfl, hmembers⟩
    · right
      simpa using hinterfaces
    · left
      simpa [members, Table.values] using hmembers
  rw [headers_block hopening hdeclare, hbody]
  rfl

/-- What is declared on one line behind a comment is one header. -/
lemma headers_before_header {comment word rest : Text} (hcomment : headers comment = [])
    (hword : word ∈ renamableWords) (hrest : '\n' ∉ rest) :
    headers (Comment.before comment (header word rest)) = [header word rest] := by
  rw [headers_before hcomment]
  apply headers_of_declare
  · exact newline_not_mem_header hword hrest
  · exact isPrefix_header word rest

/-- A function has its own header in front of that of its namespace. -/
lemma headers_functionText (hcomment : headers d.comment = []) (hname : '\n' ∉ d.name)
    (hkind : d.kind = .functionKind) (hsignature : ∀ s ∈ d.signature, '\n' ∉ s.renderAfter [])
    (h : d.functionText = .ok t) : ∃ own, headers t = own :: d.namespaceHeaders := by
  unfold functionText at h
  cases hs : d.signature with
  | none =>
    rw [hs] at h
    cases h
  | some s =>
    rw [hs] at h
    have hcall : headers (Comment.before d.comment ("declare function " ++ s.renderAfter [])) =
        [header "function" (s.renderAfter [])] := by
      have hword : ("function" : Text) ∈ renamableWords := List.mem_cons_self
      rw [← header_function]
      exact headers_before_header hcomment hword (hsignature s hs)
    refine ⟨header "function" (s.renderAfter []), ?_⟩
    dsimp only at h
    split_ifs at h with hempty
    · obtain rfl := Except.ok.inj h
      have hnone : d.hasNamespace = false := by
        simp only [Bool.and_eq_true] at hempty
        simp [hasNamespace, hempty.1, hempty.2]
      rw [hcall, namespaceHeaders, hnone]
      rfl
    · obtain rfl := Except.ok.inj h
      have hbeside : d.interfaces ≠ [] ∨ true = true ∧ d.members ≠ [] := by
        by_contra hno
        push Not at hno
        simp [hno.1, hno.2 rfl] at hempty
      have hsome : d.hasNamespace = true := by
        rcases hbeside with hinterfaces | ⟨-, hmembers⟩
        · simp [hasNamespace, hinterfaces]
        · simp [hasNamespace, hkind, hmembers]
      rw [headers_append_blank, hcall, headers_namespaceText hname hbeside, namespaceHeaders, hsome]
      rfl

/-- A variable has its own header and no other. -/
lemma headers_varText (hcomment : headers d.comment = []) (hname : '\n' ∉ d.name)
    (hsignature : ∀ s ∈ d.signature, '\n' ∉ s.renderAfter []) :
    ∃ own, headers d.varText = [own] := by
  have hobject : ∀ body : List Text, ∃ own,
      headers (Comment.before d.comment (block ("declare var " ++ d.name ++ [':']) body)) =
        [own] := by
    intro body
    have hopening : '\n' ∉ "declare var " ++ d.name ++ [':'] :=
      List.not_mem_append (List.not_mem_append (by decide) hname) (by decide)
    have hdeclare : ("declare " : Text) <+: "declare var " ++ d.name ++ [':'] :=
      (isPrefix_header "var" d.name).trans (List.prefix_append _ _)
    rw [headers_before hcomment, headers_block hopening hdeclare]
    exact ⟨_, rfl⟩
  unfold varText
  split
  · next s hs =>
    split_ifs
    · have hword : ("var" : Text) ∈ renamableWords := List.mem_cons_of_mem _ List.mem_cons_self
      have hone := headers_before_header hcomment hword (hsignature s hs)
      rw [header_var] at hone
      exact ⟨_, hone⟩
    · exact hobject _
  · exact hobject _

/-- Interfaces of a variable stand in its namespace. -/
lemma headers_withInterfaces (hname : '\n' ∉ d.name) (hkind : d.kind = .varKind) (t : Text) :
    headers (d.withInterfaces t) = headers t ++ d.namespaceHeaders := by
  rw [withInterfaces, namespaceHeaders, hasNamespace, hkind]
  by_cases hinterfaces : d.interfaces = []
  · simp [hinterfaces]
  · rw [if_neg (by simpa using hinterfaces), headers_append_blank,
      headers_namespaceText hname (Or.inl hinterfaces)]
    simp [hinterfaces]

/-- What can be renamed has its own header in front of that of its namespace. -/
lemma headers_textOf (hcomment : headers d.comment = []) (hname : '\n' ∉ d.name)
    (hkind : canRename d.kind = true) (hsignature : ∀ s ∈ d.signature, '\n' ∉ s.renderAfter [])
    (h : (textOf settings s d).Returns t) : ∃ own, headers t = own :: d.namespaceHeaders := by
  cases hk : d.kind with
  | functionKind =>
    rw [textOf, hk, Run.returns_mk] at h
    exact headers_functionText hcomment hname hk hsignature h
  | varKind =>
    rw [textOf, hk, Run.returns_pure] at h
    obtain ⟨own, hown⟩ := headers_varText hcomment hname hsignature
    refine ⟨own, ?_⟩
    rw [← h, headers_withInterfaces hname hk, hown]
    rfl
  | classKind =>
    rw [hk] at hkind
    cases hkind
  | namespaceKind =>
    rw [hk] at hkind
    cases hkind

/-- A function or a variable is declared with one header and with that of its namespace behind it. -/
lemma headers_of_ofSymbol (h : (ofSymbol settings s).value = (.ok d, s'))
    (hkind : canRename d.kind = true) (hone : Description.OneLine s.toEntry d.signature) :
    ∃ own, headers d.text = own :: d.namespaceHeaders := by
  obtain ⟨described, ms, text, hdescribed, -, rfl, htext, rfl⟩ := ofSymbol_eq_ok.mp h
  obtain ⟨ls, hcomment, hls⟩ := Description.comment_of_returns hdescribed hone
  have hnone : headers described.comment = [] := by
    rw [hcomment]
    exact headers_ofLines hls
  exact headers_textOf hnone hone.name hkind hone.signature htext

/-! ### The declaration under the other name -/

/-- The words for what a header declares. -/
def declaringWords : List Text :=
  ["function", "var", "class", "namespace"]

/-- A line of a text begins with a header for a name. -/
def HasHeaderOf (name t : Text) : Prop :=
  ∃ l ∈ Text.splitAt '\n' t, ∃ word ∈ declaringWords, header word name <+: l

instance (name t : Text) : Decidable (HasHeaderOf name t) :=
  inferInstanceAs (Decidable (∃ l ∈ Text.splitAt '\n' t, ∃ word ∈ declaringWords,
    header word name <+: l))

/-- A text has a header for a name just if one of its headers begins with it. -/
lemma hasHeaderOf_iff : HasHeaderOf name t ↔
    ∃ l ∈ headers t, ∃ word ∈ declaringWords, header word name <+: l := by
  constructor
  · rintro ⟨l, hl, word, hword, hprefix⟩
    have hdeclare : Text.startsWith "declare " l = true :=
      startsWith_iff.mpr ((isPrefix_header word name).trans hprefix)
    exact ⟨l, List.mem_filter.mpr ⟨hl, hdeclare⟩, word, hword, hprefix⟩
  · rintro ⟨l, hl, word, hword, hprefix⟩
    exact ⟨l, (List.mem_filter.mp hl).1, word, hword, hprefix⟩

/-- A line begins with headers for one word only. -/
lemma word_unique {word word' old new l : Text} (hword : ' ' ∉ word) (hword' : ' ' ∉ word')
    (h : header word old <+: l) (h' : header word' new <+: l) : word = word' := by
  obtain ⟨rest, rfl⟩ := h
  obtain ⟨rest', heq⟩ := h'
  have hheader : ∀ w n r : Text, header w n ++ r = "declare " ++ (w ++ ' ' :: (n ++ r)) := by
    intro w n r
    rw [header_eq, List.append_assoc, List.append_assoc, List.cons_append]
  rw [hheader, hheader] at heq
  have hwords : word' ++ ' ' :: (new ++ rest') = word ++ ' ' :: (old ++ rest) :=
    List.append_cancel_left heq
  rcases List.append_eq_append_iff.mp hwords with
    ⟨between, hlong, hspace⟩ | ⟨between, hlong, hspace⟩
  · cases between with
    | nil => rw [hlong, List.append_nil]
    | cons c between =>
      obtain rfl := (List.cons.inj hspace).1
      exact absurd (hlong ▸ List.mem_append_right word' List.mem_cons_self) hword
  · cases between with
    | nil => rw [hlong, List.append_nil]
    | cons c between =>
      obtain rfl := (List.cons.inj hspace).1
      exact absurd (hlong ▸ List.mem_append_right word List.mem_cons_self) hword'

/-- Headers with the same word begin alike just if their names and what follows do. -/
lemma header_isPrefix_iff {word old new line : Text} :
    header word old <+: header word new ++ line ↔ old <+: new ++ line := by
  rw [header_eq, header_eq, List.append_assoc, List.append_assoc, List.prefix_append_right_inj,
    List.prefix_append_right_inj, List.cons_append, List.cons_prefix_cons]
  exact and_iff_right rfl

/-- The header of the namespace is not that of a function or a variable. -/
lemma not_mem_namespaceHeaders {word line : Text} (hword : word ∈ renamableWords) :
    header word d.name ++ line ∉ d.namespaceHeaders := by
  have hother : ∀ w ∈ renamableWords, w ≠ ("namespace" : Text) := by decide
  intro hmem
  unfold namespaceHeaders at hmem
  split_ifs at hmem
  · have heq := List.mem_singleton.mp hmem
    have hprefix : header "namespace" d.name <+: header word d.name ++ line :=
      heq ▸ List.prefix_append _ _
    exact hother word hword (word_unique (space_not_mem_of_renamable word hword) (by decide)
      (List.prefix_append _ _) hprefix)
  · cases hmem

/-- Renaming exchanges the name in the first header, and the header of the namespace stays. -/
lemma headers_renamed {own word before behind : Text} (hold : '\n' ∉ d.name) (hnew : '\n' ∉ name)
    (h : headers t = own :: d.namespaceHeaders) (hr : Renames d.name name t u word before behind) :
    ∃ line, headers t = (header word d.name ++ line) :: d.namespaceHeaders ∧
      headers u = (header word name ++ line) :: d.namespaceHeaders := by
  obtain ⟨front, line, back, ht, hu⟩ := hr.headers hold hnew
  cases front with
  | nil =>
    obtain ⟨rfl, rfl⟩ := List.cons.inj (ht.symm.trans h)
    exact ⟨line, ht, hu⟩
  | cons l front =>
    have htail := (List.cons.inj (ht.symm.trans h)).2
    have hmem : header word d.name ++ line ∈ d.namespaceHeaders := by
      rw [← htail]
      exact List.mem_append_right front List.mem_cons_self
    exact absurd hmem (not_mem_namespaceHeaders hr.renamable)

/-- The old name is declared by a namespace alone, unless the new name begins with it. -/
lemma hasHeaderOf_iff_hasNamespace {word line : Text} (hword : word ∈ renamableWords)
    (h : headers t = (header word name ++ line) :: d.namespaceHeaders)
    (hno : ¬ d.name <+: name ++ line) :
    HasHeaderOf d.name t ↔ d.hasNamespace = true := by
  have hspaces : ∀ w ∈ declaringWords, ' ' ∉ w := by decide
  rw [hasHeaderOf_iff, h]
  constructor
  · rintro ⟨l, hl, w, hw, hprefix⟩
    rcases List.mem_cons.mp hl with rfl | hl
    · have heq : w = word := word_unique (hspaces w hw)
        (space_not_mem_of_renamable word hword) hprefix (List.prefix_append _ line)
      rw [heq, header_isPrefix_iff] at hprefix
      exact absurd hprefix hno
    · by_contra hnone
      rw [namespaceHeaders, if_neg hnone] at hl
      cases hl
  · intro hsome
    refine ⟨header "namespace" d.name ++ [' ', '{'], ?_, "namespace", by decide,
      List.prefix_append _ _⟩
    rw [namespaceHeaders, if_pos hsome]
    exact List.mem_cons_of_mem _ List.mem_cons_self

/-- The plain name of a function or a variable is an alias for the whole of it. -/
lemma renamed?_of_resolveAlias (hkind : canRename d.kind = true) (hplain : '.' ∉ d.name)
    (hnamed : named? ds d.name = some d) (h : resolveAlias ds name d.name = .ok d') :
    d.renamed? name = some d' := by
  unfold resolveAlias aliasTo at h
  rw [Text.cutAt_of_not_mem hplain] at h
  simp only [hnamed, Option.getD_none, hkind, if_true] at h
  cases hrenamed : d.renamed? name with
  | none =>
    rw [hrenamed] at h
    cases h
  | some renamed =>
    rw [hrenamed] at h
    exact congrArg some (Except.ok.inj h)

/-- A function or a variable under another name has the text of the declaration with the name exchanged
in one header.  No other header changes: that of the namespace of its members or interfaces still has the
old name, so the old name is declared besides the new one exactly if there is such a namespace. -/
theorem headers_of_resolveAlias (h : (ofSymbol settings s).value = (.ok d, s'))
    (hkind : canRename d.kind = true) (hplain : '.' ∉ d.name) (hnamed : named? ds d.name = some d)
    (hresolved : resolveAlias ds name d.name = .ok d') :
    ∃ word before behind, Renames d.name name d.text d'.text word before behind ∧
      d' = { name, kind := d.kind, text := d'.text, comment := d.comment,
             signature := d.signature.map fun s => { s with name } } ∧
      (Description.OneLine s.toEntry d.signature → '\n' ∉ name → ∃ line,
        headers d.text = (header word d.name ++ line) :: d.namespaceHeaders ∧
        headers d'.text = (header word name ++ line) :: d.namespaceHeaders ∧
        (¬ d.name <+: name ++ line → (HasHeaderOf d.name d'.text ↔ d.hasNamespace = true))) := by
  have hrenamed := renamed?_of_resolveAlias hkind hplain hnamed hresolved
  obtain ⟨text, htext, rfl⟩ := Option.map_eq_some_iff.mp hrenamed
  obtain ⟨word, before, behind, hrenames, -⟩ := exists_of_renameFirst? htext
  refine ⟨word, before, behind, hrenames, rfl, fun hone hnew => ?_⟩
  obtain ⟨own, hown⟩ := headers_of_ofSymbol h hkind hone
  have hold : '\n' ∉ d.name := by
    rw [name_of_ofSymbol h]
    exact hone.name
  obtain ⟨line, hbefore, hafter⟩ := headers_renamed hold hnew hown hrenames
  exact ⟨line, hbefore, hafter, hasHeaderOf_iff_hasNamespace hrenames.renamable hafter⟩

/-- A function with a property. -/
def levelledPrint : Symbol :=
  { name := "print"
    kind := .functionKind
    signature := some {
      name := "print"
      type := .function [⟨some "text", .atom "string", false⟩] (some (.atom "void")) false
      form := some .method }
    properties := [("level", {
      name := "level"
      signature := some { name := "level", type := .atom "number", form := some .property } })] }

/-- The symbol is declared and takes another name, and the name of the function stays in the text. -/
lemma resolved_levelledPrint :
    ∃ d s' d', (ofSymbol {} levelledPrint).value = (.ok d, s') ∧
      resolveAlias [d] "log" d.name = .ok d' ∧ d.name = "print" ∧ d.kind = .functionKind ∧
      d.signature.map (Signature.renderAfter []) = some "print(text: string): void" ∧
      HasHeaderOf d.name d'.text := by
  have hparts : ((ofSymbol {} levelledPrint).value.1.toOption.bind fun d =>
      (resolveAlias [d] "log" d.name).toOption.map fun d' =>
        (d.name, d.kind, d.signature.map (Signature.renderAfter []),
          decide (HasHeaderOf d.name d'.text))) =
      some (("print" : Text), SymbolKind.functionKind, some ("print(text: string): void" : Text),
        true) := by
    decide
  obtain ⟨d, hd, hparts⟩ := Option.bind_eq_some_iff.mp hparts
  obtain ⟨d', hd', hparts⟩ := Option.map_eq_some_iff.mp hparts
  simp only [Prod.mk.injEq, decide_eq_true_eq] at hparts
  exact ⟨d, _, d', Except.eq_of_toOption_fst hd, Except.toOption_eq_some.mp hd', hparts⟩

/-- The function `print` with a level is declared as `log`. -/
theorem headers_of_resolveAlias_levelledPrint :
    ∃ d s' d', (ofSymbol {} levelledPrint).value = (.ok d, s') ∧ canRename d.kind = true ∧
      '.' ∉ d.name ∧ named? [d] d.name = some d ∧ resolveAlias [d] "log" d.name = .ok d' ∧
      Description.OneLine levelledPrint.toEntry d.signature ∧
      ∃ word before behind line, Renames d.name "log" d.text d'.text word before behind ∧
        headers d.text = (header word d.name ++ line) :: d.namespaceHeaders ∧
        headers d'.text = (header word "log" ++ line) :: d.namespaceHeaders ∧
        (HasHeaderOf d.name d'.text ↔ d.hasNamespace = true) := by
  obtain ⟨d, s', d', hvalue, hresolved, hname, hfunction, hsignature, -⟩ := resolved_levelledPrint
  have hkind : canRename d.kind = true := by
    rw [hfunction]
    rfl
  have hplain : '.' ∉ d.name := by
    rw [hname]
    decide
  have hnamed : named? [d] d.name = some d := by simp [named?]
  have hone : Description.OneLine levelledPrint.toEntry d.signature := by
    refine ⟨by decide, fun hurl => absurd hurl (by decide), by simp [levelledPrint], ?_⟩
    intro s hs
    rw [hs] at hsignature
    rw [Option.some.inj hsignature]
    decide
  obtain ⟨word, before, behind, hrenames, -, hheaders⟩ :=
    headers_of_resolveAlias hvalue hkind hplain hnamed hresolved
  obtain ⟨line, hbefore, hafter, hiff⟩ := hheaders hone (by decide)
  have hno : ¬ d.name <+: ("log" : Text) ++ line := by
    rw [hname]
    intro hprefix
    exact absurd (List.cons_prefix_cons.mp hprefix).1 (by decide)
  exact ⟨d, s', d', hvalue, hkind, hplain, hnamed, hresolved, hone, word, before, behind, line,
    hrenames, hbefore, hafter, hiff hno⟩

/-- The alias of a function with a property goes on declaring the name of the function. -/
theorem hasHeaderOf_levelledPrint :
    ∃ d s' d', (ofSymbol {} levelledPrint).value = (.ok d, s') ∧ d.kind = .functionKind ∧
      resolveAlias [d] "log" d.name = .ok d' ∧ HasHeaderOf d.name d'.text := by
  obtain ⟨d, s', d', hvalue, hresolved, -, hkind, -, hheader⟩ := resolved_levelledPrint
  exact ⟨d, s', d', hvalue, hkind, hresolved, hheader⟩

end Declaration

end Ambient
