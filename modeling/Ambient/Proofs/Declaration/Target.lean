import Mathlib
import Ambient.Proofs.Declaration.Alias
import Ambient.Proofs.Declaration.Calls
import Ambient.Proofs.Signature.Declared

/-!
# Which targets cannot be declared under another name

A target names a declaration, and behind its first point perhaps a member.  It is bad if there is no
such declaration or member, if the members of the owner cannot be declared on their own, or if the
declaration as a whole has a fixed name (`IsBadTarget`).  Every other member is declared under the other
name.  A whole function or variable is found again by its name in its own text.  The header is always
there, with a bracket or a colon behind the name (`exists_text_of_ofSymbol`), but renaming asks for the
boundary of a word behind the name as well.  A name that ends in a letter, a digit or an underscore has
one there.  A name that ends in a dollar sign has none, and it is found only where a longer name goes on
from it (`HidesHeader`).  So the targets that fail are the bad ones and the whole functions and variables
that hide their headers (`resolveAlias_eq_error_iff`).
-/

namespace Ambient

namespace Comment

/-- What follows a declaration with a comment follows the declaration. -/
lemma before_append (comment t u : Text) : before comment t ++ u = before comment (t ++ u) := by
  unfold before
  split_ifs
  · rfl
  · exact List.append_assoc ..

end Comment

namespace Declaration

variable {settings : Settings} {document : Table Json} {given : Option Json} {all : Table Symbol}
  {e : Text × Symbol} {s' : Symbol} {d : Declaration} {ds : List Declaration}
  {name target owner member : Text}

/-! ### The header of a function or a variable -/

/-- A line of a text begins with a header for a name, and the character `c` follows the name. -/
lemma exists_mem_headers {word : Text} {c : Char} (hword : word ∈ renamableWords)
    (hname : '\n' ∉ name) (hc : c ≠ '\n') (comment rest : Text) :
    ∃ line, header word name ++ c :: line ∈
      headers (Comment.before comment (header word name ++ c :: rest)) := by
  have hfirst : ∃ line, header word name ++ c :: line ∈ headers (header word name ++ c :: rest) := by
    refine ⟨(Text.splitAt '\n' rest).headD [], ?_⟩
    rw [headers_append (newline_not_mem_header hword hname) (isPrefix_header word name),
      Text.splitAt_cons_of_ne hc]
    exact List.mem_cons_self
  unfold Comment.before
  split_ifs
  · exact hfirst
  · obtain ⟨line, hline⟩ := hfirst
    rw [headers_append_newline]
    exact ⟨line, List.mem_append_right _ hline⟩

/-- The signature of a declaration has the name of the symbol. -/
lemma name_of_mem_signature (he : Document.Completed document e)
    (h : (ofSymbol settings e.2).value = (.ok d, s')) : ∀ s ∈ d.signature, s.name = d.name := by
  obtain ⟨described, ms, text, hdescribed, -, rfl, -, rfl⟩ := ofSymbol_eq_ok.mp h
  intro s hs
  cases hsignature : e.2.signature with
  | none =>
    obtain ⟨values, hnone⟩ := Description.signature_of_returns hdescribed
    have hentry : e.2.toEntry.signature = none := hsignature
    rw [hentry, Option.map_none] at hnone
    cases hnone.symm.trans hs
  | some original =>
    obtain ⟨hname, hcallable⟩ := he.signature original hsignature
    obtain ⟨s', hs', hkeeps, -⟩ := Description.exists_signature hsignature hcallable hdescribed
    obtain rfl : s' = s := Option.some.inj (hs'.symm.trans hs)
    exact hkeeps.name.trans (hname.trans he.name.symm)

/-- A variable is declared with its name in the header and a colon behind it. -/
lemma exists_varText (hsignature : ∀ s ∈ d.signature, s.name = d.name) :
    ∃ rest, d.varText = Comment.before d.comment (header "var" d.name ++ ':' :: rest) := by
  have hobject : ∀ body, ∃ rest, Comment.before d.comment
      (block ("declare var " ++ d.name ++ [':']) body) =
        Comment.before d.comment (header "var" d.name ++ ':' :: rest) := by
    intro body
    unfold block
    exact ⟨_, congrArg _ (List.append_assoc ..)⟩
  unfold varText
  split
  · next s hs =>
    split_ifs with hproperty
    · simp only [Bool.and_eq_true, decide_eq_true_eq] at hproperty
      have hrender := Signature.renderAfter_property [] hproperty.2
      rw [hsignature s hs] at hrender
      refine ⟨' ' :: s.type.render, ?_⟩
      dsimp only
      rw [hrender, List.nil_append, header_var, List.append_assoc, List.append_assoc]
      rfl
    · exact hobject _
  · exact hobject _

/-- The namespace of the interfaces stands behind everything else. -/
lemma exists_withInterfaces (d : Declaration) (t : Text) :
    ∃ behind, d.withInterfaces t = t ++ behind := by
  unfold withInterfaces
  split_ifs
  · exact ⟨[], (List.append_nil t).symm⟩
  · exact ⟨_, List.append_assoc ..⟩

/-- Functions and variables can be renamed, and nothing else. -/
lemma canRename_iff {kind : SymbolKind} :
    canRename kind = true ↔ kind = .functionKind ∨ kind = .varKind := by
  cases kind <;> simp [canRename]

/-- A function or a variable is declared, behind its comment, with a header for its name; a bracket or a
colon follows the name. -/
lemma exists_text_of_ofSymbol (he : Document.Completed document e)
    (h : (ofSymbol settings e.2).value = (.ok d, s')) (hkind : canRename d.kind = true) :
    ∃ word ∈ renamableWords, ∃ c ∈ ['(', ':'], ∃ rest,
      d.text = Comment.before d.comment (header word d.name ++ c :: rest) := by
  have hsignature := name_of_mem_signature he h
  rcases canRename_iff.mp hkind with hfunction | hvar
  · obtain ⟨data, s, behind, -, -, -, htype, hcall⟩ := declared_of_ofSymbol he h hfunction
    refine ⟨"function", List.mem_cons_self, ?_⟩
    by_cases hmarked : Description.Marked settings (Document.textAt data (some "!doc"))
    · obtain ⟨-, htext⟩ := htype hmarked
      refine ⟨':', by simp, ' ' :: s.type.render ++ behind, ?_⟩
      rw [htext, Comment.before_append, header_function]
      simp only [List.append_assoc]
      rfl
    · obtain ⟨-, params, returns, -, -, htext⟩ := hcall hmarked
      refine ⟨'(', by simp,
        TypeExpr.paramListText params ++ ")" ++ Signature.returnsText returns ++ behind, ?_⟩
      rw [htext, Comment.before_append, header_function]
      simp only [List.append_assoc]
      rfl
  · obtain ⟨described, ms, text, -, -, rfl, htext, rfl⟩ := ofSymbol_eq_ok.mp h
    rw [textOf, hvar, Run.returns_pure] at htext
    obtain ⟨rest, hrest⟩ := exists_varText hsignature
    obtain ⟨behind, hbehind⟩ := exists_withInterfaces (ofParts _ described ms) (varText _)
    refine ⟨"var", List.mem_cons_of_mem _ List.mem_cons_self, ':', by simp, rest ++ behind, ?_⟩
    rw [← htext]
    refine hbehind.trans ((congrArg (· ++ behind) hrest).trans ?_)
    rw [Comment.before_append, List.append_assoc]
    rfl

/-! ### Headers that are not found -/

/-- The name of a declaration ends in a dollar sign, and nowhere does a header for the name go on with a
letter, a digit or an underscore. -/
def HidesHeader (d : Declaration) : Prop :=
  d.name.getLast? = some '$' ∧ ∀ l ∈ headers d.text, ∀ word ∈ renamableWords, ∀ c rest,
    l = header word d.name ++ c :: rest → isWord c = false

/-- No word goes on with what follows the name in a header. -/
lemma isWord_mark : ∀ c ∈ ['(', ':'], isWord c = false ∧ c ≠ '\n' := by
  intro c hc
  rcases List.mem_pair.mp hc with rfl | rfl
  · exact ⟨by decide, by decide⟩
  · exact ⟨by decide, by decide⟩

/-- An identifier stands on one line. -/
lemma newline_not_mem_of_isIdentifier (h : Token.IsIdentifier name) : '\n' ∉ name := fun hmem =>
  absurd (Signature.IsIdentifier.forall_isNameRest h _ hmem) (by decide)

/-- An identifier ends in a character of a word or in a dollar sign. -/
lemma exists_getLast?_of_isIdentifier (h : Token.IsIdentifier name) :
    ∃ a, name.getLast? = some a ∧ (isWord a = true ∨ a = '$') := by
  have hne : name ≠ [] := by
    rintro rfl
    exact h
  refine ⟨name.getLast hne, List.getLast?_eq_some_getLast hne, ?_⟩
  have hrest := Signature.IsIdentifier.forall_isNameRest h _ (List.getLast_mem hne)
  simpa [isNameRest] using hrest

/-- A line goes on with a character of a word where the name ends in a dollar sign. -/
lemma opens_iff_of_dollar {l : Text} (hname : name.getLast? = some '$') :
    Opens name l ↔ ∃ word ∈ renamableWords, ∃ c rest,
      l = header word name ++ c :: rest ∧ isWord c = true := by
  have hdollar : isWord '$' = false := by decide
  unfold Opens
  rw [hname]
  constructor
  · rintro ⟨word, hword, rest, rfl, hboundary⟩
    cases rest with
    | nil => simp [Text.atBoundary, hdollar] at hboundary
    | cons c rest =>
      have hc : isWord c = true := by simpa [Text.atBoundary, hdollar] using hboundary
      exact ⟨word, hword, c, rest, rfl, hc⟩
  · rintro ⟨word, hword, c, rest, rfl, hc⟩
    exact ⟨word, hword, c :: rest, rfl, by simp [Text.atBoundary, hdollar, hc]⟩

/-- A whole function or variable is declared under another name unless it hides its header. -/
lemma renamed?_eq_none_iff (he : Document.Completed document e) (hname : Token.IsIdentifier e.1)
    (h : (ofSymbol settings e.2).value = (.ok d, s')) (hkind : canRename d.kind = true) :
    d.renamed? name = none ↔ HidesHeader d := by
  have hkey : d.name = e.1 := (name_of_ofSymbol h).trans he.name
  rw [← hkey] at hname
  have hnewline := newline_not_mem_of_isIdentifier hname
  have hfound : d.renamed? name = none ↔ ¬ ∃ l ∈ headers d.text, Opens d.name l := by
    have hsome : (renameFirst? d.name name true d.text).isSome = true ↔ _ :=
      isSome_renameFirst?_iff_headers hnewline
    rw [← hsome, renamed?, Option.map_eq_none_iff, Option.not_isSome_iff_eq_none]
  rw [hfound]
  obtain ⟨a, ha, hword | rfl⟩ := exists_getLast?_of_isIdentifier hname
  · obtain ⟨word, hrenamable, c, hc, rest, htext⟩ := exists_text_of_ofSymbol he h hkind
    obtain ⟨hmark, hfeed⟩ := isWord_mark c hc
    obtain ⟨line, hline⟩ := exists_mem_headers hrenamable hnewline hfeed d.comment rest
    rw [← htext] at hline
    have hopens : Opens d.name (header word d.name ++ c :: line) := by
      refine ⟨word, hrenamable, c :: line, rfl, ?_⟩
      rw [ha]
      simp [Text.atBoundary, hword, hmark]
    constructor
    · intro hno
      exact absurd ⟨_, hline, hopens⟩ hno
    · rintro ⟨hdollar, -⟩
      obtain rfl := Option.some.inj (ha.symm.trans hdollar)
      exact absurd hword (by decide)
  · unfold HidesHeader
    simp only [opens_iff_of_dollar ha, ha, true_and]
    constructor
    · intro hno l hl word hrenamable c rest heq
      by_contra hc
      exact hno ⟨l, hl, word, hrenamable, c, rest, heq, by simpa using hc⟩
    · rintro hall ⟨l, hl, word, hrenamable, c, rest, heq, hc⟩
      exact absurd (hall l hl word hrenamable c rest heq) (by simp [hc])

/-- Where the documentation brings in no line of its own, a dollar sign at the end of the name hides the
header. -/
lemma hidesHeader_iff (he : Document.Completed document e)
    (h : (ofSymbol settings e.2).value = (.ok d, s')) (hkind : canRename d.kind = true)
    (hone : Description.OneLine e.2.toEntry d.signature) :
    HidesHeader d ↔ d.name.getLast? = some '$' := by
  refine ⟨And.left, fun hdollar => ⟨hdollar, ?_⟩⟩
  obtain ⟨own, hown⟩ := headers_of_ofSymbol h hkind hone
  have hname : '\n' ∉ d.name := by
    rw [name_of_ofSymbol h]
    exact hone.name
  -- what follows the name in a header of a function or a variable is what follows it in the text
  obtain ⟨word, hword, c, hc, rest, htext⟩ := exists_text_of_ofSymbol he h hkind
  obtain ⟨hmark, hfeed⟩ := isWord_mark c hc
  obtain ⟨line, hline⟩ := exists_mem_headers hword hname hfeed d.comment rest
  rw [← htext] at hline
  have honly : ∀ w ∈ renamableWords, ∀ r, header w d.name ++ r ∈ headers d.text →
      header w d.name ++ r = own := by
    intro w hw r hmem
    rw [hown] at hmem
    exact (List.mem_cons.mp hmem).resolve_right (not_mem_namespaceHeaders hw)
  rintro l hl w hw c' rest' rfl
  have heq : header w d.name ++ c' :: rest' = header word d.name ++ c :: line :=
    (honly w hw _ hl).trans (honly word hword _ hline).symm
  obtain rfl : w = word := word_unique (space_not_mem_of_renamable w hw)
    (space_not_mem_of_renamable word hword) (List.prefix_append _ _) ⟨c :: line, heq.symm⟩
  obtain ⟨rfl, -⟩ := List.cons.inj (List.append_cancel_left heq)
  exact hmark

/-! ### Targets -/

/-- The parts of a target in front of its first point and behind it; without a point there is no
member. -/
def SplitsAtPoint (target owner member : Text) : Prop :=
  '.' ∉ owner ∧ (target = owner ++ '.' :: member ∨ target = owner ∧ member = [])

/-- A target is cut at its first point. -/
lemma SplitsAtPoint.exists_cutAt (h : SplitsAtPoint target owner member) :
    ∃ rest, Text.cutAt '.' target = (owner, rest) ∧ rest.getD [] = member := by
  obtain ⟨howner, rfl | ⟨rfl, rfl⟩⟩ := h
  · exact ⟨some member, Text.cutAt_eq_some.mpr ⟨howner, rfl⟩, rfl⟩
  · exact ⟨none, Text.cutAt_of_not_mem howner, rfl⟩

/-- What is named is no target: no declaration has the name of the owner, or a member is named and the
owner is a function or has no member with that name, or no member is named and the owner is a class or a
namespace. -/
def IsBadTarget (ds : List Declaration) (owner member : Text) : Prop :=
  (∀ d ∈ ds, d.name ≠ owner) ∨ ∃ d, named? ds owner = some d ∧
    (member ≠ [] ∧ (d.kind = .functionKind ∨ ∀ m ∈ Table.values d.members, m.name ≠ member) ∨
      member = [] ∧ (d.kind = .classKind ∨ d.kind = .namespaceKind))

/-- What is named is a whole function or variable that hides its header. -/
def IsHiddenTarget (ds : List Declaration) (owner member : Text) : Prop :=
  member = [] ∧ ∃ d, named? ds owner = some d ∧ canRename d.kind = true ∧ HidesHeader d

/-- No declaration is found just if none has the name. -/
lemma named?_eq_none_iff : named? ds owner = none ↔ ∀ d ∈ ds, d.name ≠ owner := by
  simp [named?]

lemma name_of_named? (h : named? ds owner = some d) : d.name = owner := by
  simpa using List.find?_some h

/-- Of declarations with one name the last is named. -/
lemma named?_concat (h : d.name = owner) : named? (ds ++ [d]) owner = some d := by
  simp [named?, h]

/-- A declaration of another name changes nothing about what is found. -/
lemma named?_concat_of_ne (h : d.name ≠ owner) : named? (ds ++ [d]) owner = named? ds owner := by
  simp [named?, h]

lemma findMember?_eq_none_iff :
    d.findMember? member = none ↔ ∀ m ∈ Table.values d.members, m.name ≠ member := by
  unfold findMember?
  rw [Option.or_eq_none_iff, List.head?_eq_none_iff]
  constructor
  · rintro ⟨-, hnone⟩ m hm
    simpa using List.filter_eq_nil_iff.mp hnone m hm
  · intro h
    have hnone : ((Table.values d.members).filter fun m => m.name = member) = [] :=
      List.filter_eq_nil_iff.mpr (by simpa using h)
    rw [hnone]
    exact ⟨rfl, rfl⟩

/-- Only an owner that is declared decides whether its target is bad. -/
lemma isBadTarget_iff (h : named? ds owner = some d) :
    IsBadTarget ds owner member ↔
      member ≠ [] ∧ (d.kind = .functionKind ∨ ∀ m ∈ Table.values d.members, m.name ≠ member) ∨
        member = [] ∧ (d.kind = .classKind ∨ d.kind = .namespaceKind) := by
  constructor
  · rintro (hunknown | ⟨d', h', hbad⟩)
    · exact absurd (name_of_named? h) (hunknown d (mem_of_named? h))
    · obtain rfl := Option.some.inj (h.symm.trans h')
      exact hbad
  · exact fun hbad => Or.inr ⟨d, h, hbad⟩

/-- If the owner is declared, the target is hidden just if it is the whole owner and this hides its
header. -/
lemma isHiddenTarget_iff (h : named? ds owner = some d) :
    IsHiddenTarget ds owner member ↔
      member = [] ∧ canRename d.kind = true ∧ HidesHeader d := by
  constructor
  · rintro ⟨hmember, d', h', hhidden⟩
    obtain rfl := Option.some.inj (h.symm.trans h')
    exact ⟨hmember, hhidden⟩
  · rintro ⟨hmember, hhidden⟩
    exact ⟨hmember, d, h, hhidden⟩

/-! ### Resolving a target -/

/-- There is no alias of what is not declared. -/
lemma aliasTo_of_named?_eq_none (htarget : SplitsAtPoint target owner member)
    (h : named? ds owner = none) : aliasTo ds name target = .error (.noDeclaration owner) := by
  obtain ⟨rest, hcut, -⟩ := htarget.exists_cutAt
  rw [aliasTo, hcut]
  simp only [h]

/-- A target without a member is a whole declaration. -/
lemma aliasTo_whole (name : Text) (htarget : SplitsAtPoint target owner [])
    (h : named? ds owner = some d) :
    aliasTo ds name target =
      if canRename d.kind then (d.renamed? name).elim (.error .noHeader) .ok
      else .error (.fixedName d.kind) := by
  obtain ⟨rest, hcut, hmember⟩ := htarget.exists_cutAt
  rw [aliasTo, hcut]
  simp only [h, hmember]

/-- A member is declared under the other name if its owner opens its members and has one of that
name. -/
lemma aliasTo_member (name : Text) (htarget : SplitsAtPoint target owner member)
    (hne : member ≠ []) (h : named? ds owner = some d) :
    aliasTo ds name target =
      if opensMembers d.kind then
        (d.findMember? member).elim (.error (.noMember owner member)) (.ok ∘ ofMember name)
      else .error (.closedOwner d.kind) := by
  obtain ⟨rest, hcut, hmember⟩ := htarget.exists_cutAt
  obtain ⟨c, cs, rfl⟩ := List.exists_cons_of_ne_nil hne
  rw [aliasTo, hcut]
  simp only [h, hmember]
  cases d.findMember? (c :: cs) <;> rfl

/-- An alias is declared just if its target can be. -/
lemma resolveAlias_eq_ok :
    resolveAlias ds name target = .ok d ↔ aliasTo ds name target = .ok d := by
  unfold resolveAlias
  cases aliasTo ds name target <;> simp [Except.mapError]

/-- An alias fails just if its target does, with the fault of the target. -/
lemma resolveAlias_eq_error {fault : AliasFault} :
    resolveAlias ds name target = .error (.aliasing name target fault) ↔
      aliasTo ds name target = .error fault := by
  unfold resolveAlias
  cases aliasTo ds name target <;> simp [Except.mapError]

/-- What comes of a target: it is bad, it is hidden, or it is declared under the other name. -/
inductive Outcome (ds : List Declaration) (name target owner member : Text) : Prop
  | bad {fault : AliasFault} : IsBadTarget ds owner member →
      aliasTo ds name target = .error fault → Outcome ds name target owner member
  | hidden : IsHiddenTarget ds owner member →
      aliasTo ds name target = .error .noHeader → Outcome ds name target owner member
  | declared {d : Declaration} : ¬ IsBadTarget ds owner member → ¬ IsHiddenTarget ds owner member →
      aliasTo ds name target = .ok d → Outcome ds name target owner member

lemma outcome_whole (htarget : SplitsAtPoint target owner []) (hnamed : named? ds owner = some d)
    (hrenamed : canRename d.kind = true → (d.renamed? name = none ↔ HidesHeader d)) :
    Outcome ds name target owner [] := by
  have halias := aliasTo_whole name htarget hnamed
  by_cases hkind : canRename d.kind = true
  · rw [if_pos hkind] at halias
    cases hd : d.renamed? name with
    | none =>
      rw [hd] at halias
      have hhidden := (hrenamed hkind).mp hd
      exact .hidden ((isHiddenTarget_iff hnamed).mpr ⟨rfl, hkind, hhidden⟩) halias
    | some d' =>
      rw [hd] at halias
      refine .declared ?_ ?_ halias
      · rw [isBadTarget_iff hnamed]
        rcases canRename_iff.mp hkind with hk | hk <;> simp [hk]
      · rw [isHiddenTarget_iff hnamed, ← hrenamed hkind, hd]
        simp
  · rw [if_neg hkind] at halias
    have hfixed : d.kind = .classKind ∨ d.kind = .namespaceKind := by
      cases hk : d.kind <;> simp [hk, canRename] at hkind ⊢
    exact .bad ((isBadTarget_iff hnamed).mpr (Or.inr ⟨rfl, hfixed⟩)) halias

lemma outcome_member (htarget : SplitsAtPoint target owner member) (hmember : member ≠ [])
    (hnamed : named? ds owner = some d) : Outcome ds name target owner member := by
  have halias := aliasTo_member name htarget hmember hnamed
  by_cases hkind : d.kind = .functionKind
  · rw [if_neg (by simp [hkind, opensMembers])] at halias
    exact .bad ((isBadTarget_iff hnamed).mpr (Or.inl ⟨hmember, Or.inl hkind⟩)) halias
  · have hopens : opensMembers d.kind = true := by
      cases hk : d.kind <;> simp [hk, opensMembers] at hkind ⊢
    rw [if_pos hopens] at halias
    cases hm : d.findMember? member with
    | none =>
      rw [hm] at halias
      have hmissing := findMember?_eq_none_iff.mp hm
      exact .bad ((isBadTarget_iff hnamed).mpr (Or.inl ⟨hmember, Or.inr hmissing⟩)) halias
    | some m =>
      rw [hm] at halias
      refine .declared ?_ ?_ halias
      · rw [isBadTarget_iff hnamed, ← findMember?_eq_none_iff, hm]
        simp [hmember, hkind]
      · rw [isHiddenTarget_iff hnamed]
        exact fun hhidden => hmember hhidden.1

/-- Every target is bad, hidden, or declared under the other name. -/
lemma outcome (htarget : SplitsAtPoint target owner member)
    (hrenamed : ∀ d ∈ ds, canRename d.kind = true → (d.renamed? name = none ↔ HidesHeader d)) :
    Outcome ds name target owner member := by
  cases hnamed : named? ds owner with
  | none =>
    exact .bad (Or.inl (named?_eq_none_iff.mp hnamed)) (aliasTo_of_named?_eq_none htarget hnamed)
  | some d =>
    by_cases hmember : member = []
    · subst hmember
      exact outcome_whole htarget hnamed (hrenamed d (mem_of_named? hnamed))
    · exact outcome_member htarget hmember hnamed

/-- A symbol of a document with an identifier for its name, and its declaration. -/
structure DeclaredBy (settings : Settings) (all : Table Symbol) (d : Declaration)
    (e : Text × Symbol) : Prop where
  mem : e ∈ all
  identifier : Token.IsIdentifier e.1
  declared : ∃ s', (ofSymbol settings e.2).value = (.ok d, s')

/-- An alias fails exactly if its target is bad or hidden, and every other target is declared under the
name of the alias.  What hides a header is a dollar sign at the end of the name, unless a line of the
documentation looks like the header of a longer name. -/
theorem resolveAlias_eq_error_iff (h : (Document.symbols settings document given).Returns all)
    (hds : ∀ d ∈ ds, ∃ e, DeclaredBy settings all d e)
    (htarget : SplitsAtPoint target owner member) :
    ((∃ fault, resolveAlias ds name target = .error (.aliasing name target fault)) ↔
      IsBadTarget ds owner member ∨ IsHiddenTarget ds owner member) ∧
    (¬ IsBadTarget ds owner member → ¬ IsHiddenTarget ds owner member →
      ∃ d', resolveAlias ds name target = .ok d' ∧ d'.name = name) ∧
    ∀ d e, DeclaredBy settings all d e → canRename d.kind = true →
      Description.OneLine e.2.toEntry d.signature →
      (HidesHeader d ↔ d.name.getLast? = some '$') := by
  have hcompleted := Document.completed_symbols h
  have hrenamed : ∀ d ∈ ds, canRename d.kind = true →
      (d.renamed? name = none ↔ HidesHeader d) := by
    intro d hd hkind
    obtain ⟨e, he⟩ := hds d hd
    obtain ⟨s', hdeclared⟩ := he.declared
    exact renamed?_eq_none_iff (hcompleted e he.mem) he.identifier hdeclared hkind
  -- all three statements are read off what comes of the target
  have houtcome := outcome htarget hrenamed
  refine ⟨⟨?_, ?_⟩, ?_, ?_⟩
  · rintro ⟨fault, hfails⟩
    cases houtcome with
    | bad hbad _ => exact Or.inl hbad
    | hidden hhidden _ => exact Or.inr hhidden
    | declared _ _ hd => cases (resolveAlias_eq_ok.mpr hd).symm.trans hfails
  · intro hno
    cases houtcome with
    | bad _ hfault => exact ⟨_, resolveAlias_eq_error.mpr hfault⟩
    | hidden _ hfault => exact ⟨_, resolveAlias_eq_error.mpr hfault⟩
    | declared hbad hhidden _ => exact absurd hno (not_or.mpr ⟨hbad, hhidden⟩)
  · intro hbad hhidden
    cases houtcome with
    | bad hbad' _ => exact absurd hbad' hbad
    | hidden hhidden' _ => exact absurd hhidden' hhidden
    | declared _ _ hd => exact ⟨_, resolveAlias_eq_ok.mpr hd, name_of_aliasTo hd⟩
  · intro d e he hkind hone
    obtain ⟨s', hdeclared⟩ := he.declared
    exact hidesHeader_iff (hcompleted e he.mem) hdeclared hkind hone

/-- A document of a function and an object whose names end in a dollar sign. -/
def dollarDocument : Table Json :=
  [("$", .object [("!type", .text "fn(selector: string)")]),
    ("root$", .object [("size", .object [("!type", .text "number")])])]

/-- What is declared for the document. -/
lemma exists_dollarDocument : ∃ all symbols call object,
    (Document.symbols {} dollarDocument none).Returns all ∧
      (ofSymbols {} all).value = (.ok [call, object], symbols) ∧
      (∀ e ∈ all, Token.IsIdentifier e.1) ∧
      (call.name, call.kind) = (("$" : Text), SymbolKind.functionKind) ∧
      (object.name, object.kind, (Table.values object.members).map (·.name)) =
        (("root$" : Text), SymbolKind.varKind, [("size" : Text)]) ∧
      (aliasTo [call, object] "query" "$").toOption.isNone = true := by
  have hparts : ((Document.symbols {} dollarDocument none).run.value.toOption.bind fun all =>
      ((ofSymbols {} all).value.1.toOption.filter fun ds =>
        (aliasTo ds "query" "$").toOption.isNone).map fun ds =>
          ds.map fun d => (d.name, d.kind, (Table.values d.members).map (·.name))) =
      some [(("$" : Text), SymbolKind.functionKind, []),
        (("root$" : Text), SymbolKind.varKind, [("size" : Text)])] := by
    decide +kernel
  obtain ⟨all, hall, hparts⟩ := Option.bind_eq_some_iff.mp hparts
  obtain ⟨ds, hfilter, hdeclared⟩ := Option.map_eq_some_iff.mp hparts
  obtain ⟨hds, hnone⟩ := Option.filter_eq_some_iff.mp hfilter
  obtain ⟨call, rest, rfl, hcall, hrest⟩ := List.map_eq_cons_iff.mp hdeclared
  obtain ⟨object, rfl, hobject⟩ := List.map_eq_singleton_iff.mp hrest
  rw [← Run.returns_iff_toOption] at hall
  have hvalue : (ofSymbols {} all).value = (.ok [call, object], (ofSymbols {} all).value.2) :=
    Except.eq_of_toOption_fst hds
  have hidentifiers : ∀ name ∈ Table.keys all, Token.IsIdentifier name := by
    rw [Document.keys_symbols hall]
    decide
  obtain ⟨hname, hkind⟩ := Prod.mk.inj hcall
  exact ⟨all, _, call, object, hall, hvalue,
    fun e he => hidentifiers e.1 (List.mem_map_of_mem he),
    Prod.ext hname (Prod.mk.inj hkind).1, hobject, hnone⟩

/-- A member of an object whose name ends in a dollar sign. -/
theorem resolveAlias_eq_error_iff_dollarDocument :
    ∃ all ds d', (Document.symbols {} dollarDocument none).Returns all ∧
      (∀ d ∈ ds, ∃ e, DeclaredBy {} all d e) ∧ SplitsAtPoint "root$.size" "root$" "size" ∧
      ¬ IsBadTarget ds "root$" "size" ∧ ¬ IsHiddenTarget ds "root$" "size" ∧
      resolveAlias ds "extent" "root$.size" = .ok d' ∧ d'.name = "extent" := by
  obtain ⟨all, symbols, call, object, hall, hvalue, hidentifiers, -, hobject, -⟩ :=
    exists_dollarDocument
  have hds : ∀ d ∈ [call, object], ∃ e, DeclaredBy {} all d e := by
    intro d hd
    obtain ⟨e, he, hdeclared⟩ := exists_of_mem_forall₂ (forall₂_of_ofSymbols hvalue).1 hd
    exact ⟨e, he, hidentifiers e he, hdeclared⟩
  have htarget : SplitsAtPoint "root$.size" "root$" "size" := ⟨by decide, Or.inl rfl⟩
  obtain ⟨hname, hrest⟩ := Prod.mk.inj hobject
  obtain ⟨hkind, hmembers⟩ := Prod.mk.inj hrest
  have hnamed : named? [call, object] "root$" = some object :=
    (named?_concat hname : named? ([call] ++ [object]) "root$" = some object)
  have hbad : ¬ IsBadTarget [call, object] "root$" "size" := by
    have hsome : ∃ m ∈ Table.values object.members, m.name = ("size" : Text) := by
      rw [← List.mem_map, hmembers]
      exact List.mem_singleton_self _
    obtain ⟨m, hm, hsize⟩ := hsome
    rw [isBadTarget_iff hnamed, hkind]
    rintro (⟨-, hfunction | hmissing⟩ | ⟨hnil, -⟩)
    · cases hfunction
    · exact hmissing m hm hsize
    · exact absurd hnil (by decide)
  have hhidden : ¬ IsHiddenTarget [call, object] "root$" "size" := fun h => absurd h.1 (by decide)
  obtain ⟨d', hd', hname'⟩ := (resolveAlias_eq_error_iff hall hds htarget).2.1 hbad hhidden
  exact ⟨all, _, d', hall, hds, htarget, hbad, hhidden, hd', hname'⟩

/-- The function of the document has no other name, though its target is not bad. -/
theorem resolveAlias_dollarDocument :
    ∃ all symbols ds fault, (Document.symbols {} dollarDocument none).Returns all ∧
      (ofSymbols {} all).value = (.ok ds, symbols) ∧ (∀ e ∈ all, Token.IsIdentifier e.1) ∧
      SplitsAtPoint "$" "$" [] ∧ ¬ IsBadTarget ds "$" [] ∧
      resolveAlias ds "query" "$" = .error (.aliasing "query" "$" fault) := by
  obtain ⟨all, symbols, call, object, hall, hvalue, hidentifiers, hcall, hobject, hnone⟩ :=
    exists_dollarDocument
  have htarget : SplitsAtPoint "$" "$" [] := ⟨by decide, Or.inr ⟨rfl, rfl⟩⟩
  obtain ⟨hname, hkind⟩ := Prod.mk.inj hcall
  obtain ⟨hother, -⟩ := Prod.mk.inj hobject
  have hne : object.name ≠ ("$" : Text) := by
    rw [hother]
    decide
  have hnamed : named? [call, object] "$" = some call :=
    calc named? ([call] ++ [object]) "$"
      _ = named? ([] ++ [call]) "$" := named?_concat_of_ne hne
      _ = some call := named?_concat hname
  have hbad : ¬ IsBadTarget [call, object] "$" [] := by
    rw [isBadTarget_iff hnamed, hkind]
    simp
  cases hfault : aliasTo [call, object] "query" "$" with
  | error fault =>
    exact ⟨all, symbols, _, fault, hall, hvalue, hidentifiers, htarget, hbad,
      resolveAlias_eq_error.mpr hfault⟩
  | ok d =>
    rw [hfault] at hnone
    cases hnone

end Declaration

end Ambient
