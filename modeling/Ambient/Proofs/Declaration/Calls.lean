import Mathlib
import Ambient.Proofs.Declaration.Isolation
import Ambient.Proofs.Declaration.Members
import Ambient.Proofs.Description.Shape

/-!
# Which functions are declared as calls

A symbol is a function if the rules make its signature a method, and it is declared with the signature
that its documentation makes of that one.  The two have the same form unless the documentation begins
with the marker of a property: such a symbol is still declared as a function, but with the type of a
property behind its name.  Every other function is declared as a call (`calls_of_returns`).
-/

namespace Ambient

namespace Signature

variable {s : Signature} {params : List TypeParam} {returns : Option TypeExpr} {arrow : Bool}

/-- A method is written as its name, its parameters and what it returns. -/
lemma renderAfter_method (lead : Text) (hform : s.form = some .method)
    (htype : s.type = .function params returns arrow) :
    s.renderAfter lead =
      lead ++ s.name ++ "(" ++ TypeExpr.paramListText params ++ ")" ++ returnsText returns := by
  rw [renderAfter.eq_def, hform, htype]

/-- A property is written as its name and its type. -/
lemma renderAfter_property (lead : Text) (hform : s.form = some .property) :
    s.renderAfter lead = lead ++ s.name ++ ": " ++ s.type.render := by
  rw [renderAfter.eq_def, hform]

end Signature

namespace Document

variable {settings : Settings} {document overlay : Table Json} {given : Option Json}
  {all : Table Symbol} {name : Text} {data : Table Json} {s s' : Symbol}

/-! ### Symbols and their signatures -/

/-- The documentation of a symbol in short is that of the object that describes it. -/
def DocumentedBy (document : Table Json) (e : Text × Symbol) : Prop :=
  ∃ data, (e.1, Json.object data) ∈ document ∧ e.2.shortDoc = textAt data (some "!doc")

/-- A symbol whose members are not yet translated. -/
structure Drafted (document : Table Json) (e : Text × Symbol) : Prop where
  name : e.2.name = e.1
  doc : DocumentedBy document e
  kind : e.2.kind ≠ .functionKind
  signature : ∀ s ∈ e.2.signature, s.name = e.1 ∧ Callable s

/-- A symbol whose members are translated. -/
structure Completed (document : Table Json) (e : Text × Symbol) : Prop where
  name : e.2.name = e.1
  doc : DocumentedBy document e
  function : e.2.kind = .functionKind → ∃ s ∈ e.2.signature, s.form = some .method
  signature : ∀ s ∈ e.2.signature, s.name = e.1 ∧ Callable s
  members : ∀ m ∈ e.2.keyedMembers, ∃ s, m.2.signature = some s ∧ Callable s

/-- A symbol is drafted when it is made of its object. -/
lemma drafted_symbol (hs : symbol settings name data = .ok s)
    (hdata : (name, Json.object data) ∈ document) : Drafted document (name, s) := by
  obtain ⟨e, ms, he, -, rfl⟩ := symbol_eq_ok.mp hs
  have hname := name_of_symbol hs
  simp only [entry, Except.bind_eq_ok, Except.pure_eq_ok] at he
  obtain ⟨_, -, _, -, _, -, rfl⟩ := he
  have hkind : kindOfName name ≠ .functionKind := by
    unfold kindOfName
    split_ifs <;> simp
  rw [Symbol.foldl_addMember] at hname ⊢
  unfold translateOwn at hname ⊢
  split_ifs at hname ⊢
  · exact ⟨hname, ⟨data, hdata, rfl⟩, hkind, by simp⟩
  · refine ⟨hname, ⟨data, hdata, rfl⟩, hkind, fun sig hsig => ?_⟩
    obtain rfl := Option.mem_some.mp hsig
    exact ⟨(Signature.name_translate _ _).trans hname, Signature.callable_translate _ _⟩

/-- Members of the overlay leave a symbol a draft. -/
lemma drafted_attachAll (hs : attachAll settings s data = .ok s')
    (h : Drafted document (name, s)) : Drafted document (name, s') := by
  obtain ⟨ms, -, rfl⟩ := attachAll_eq_ok.mp hs
  rw [Symbol.foldl_addMember]
  exact ⟨h.name, h.doc, h.kind, h.signature⟩

/-- Translating the members completes a draft. -/
lemma completed_finish (h : Drafted document (name, s)) :
    Completed document (name, finish settings s) := by
  refine ⟨h.name, h.doc, fun hkind => ?_, h.signature, ?_⟩
  · unfold finish Symbol.classified at hkind
    dsimp only at hkind
    split_ifs at hkind with hmethod
    · cases hsig : s.signature with
      | none => simp [hsig] at hmethod
      | some sig => exact ⟨sig, hsig, by simpa [hsig] using hmethod⟩
    · exact absurd hkind h.kind
  · intro m hm
    have hmembers : (finish settings s).keyedMembers =
        s.keyedMembers.map fun m => (m.1, translateMember settings s.name m.2) := by
      simp [finish, Symbol.keyedMembers]
    obtain ⟨m', -, rfl⟩ := List.mem_map.mp (hmembers ▸ hm)
    exact ⟨_, rfl, Signature.callable_translate _ _⟩

/-- What the symbols of a document are. -/
lemma completed_symbols (h : (Document.symbols settings document given).Returns all) :
    ∀ e ∈ all, Completed document e :=
  forall_symbols (P := Drafted document) (fun _ _ _ hdata hs => drafted_symbol hs hdata)
    (fun _ _ _ _ hs' hdrafted => drafted_attachAll hs' hdrafted)
    (fun _ _ hdrafted => completed_finish hdrafted) h

end Document

namespace Declaration

variable {settings : Settings} {document : Table Json} {ds : List Declaration} {d : Declaration}
  {e : Text × Symbol} {s' : Symbol}

/-! ### Functions -/

/-- The declaration of a function says how it is called; `behind` follows it. -/
def DeclaresCall (d : Declaration) (s : Signature) (behind : Text) : Prop :=
  s.form = some .method ∧ ∃ params returns arrow, s.type = .function params returns arrow ∧
    d.text = Comment.before d.comment ("declare function " ++ d.name ++ "("
      ++ TypeExpr.paramListText params ++ ")" ++ Signature.returnsText returns) ++ behind

/-- The declaration of a function has a type behind the name, as that of a property has. -/
def DeclaresType (d : Declaration) (s : Signature) (behind : Text) : Prop :=
  s.form = some .property ∧
    d.text = Comment.before d.comment ("declare function " ++ d.name ++ ": " ++ s.type.render)
      ++ behind

/-- What may follow the declaration of a function: nothing, or the namespace of its members. -/
def IsBehind (d : Declaration) (behind : Text) : Prop :=
  behind = [] ∨ behind = "\n\n" ++ d.namespaceText true

/-- A function is declared with its signature, in front of nothing or of its namespace. -/
lemma functionText_eq_ok {text : Text} (h : d.functionText = .ok text) :
    ∃ s behind, d.signature = some s ∧ IsBehind d behind ∧
      text = Comment.before d.comment ("declare function " ++ s.renderAfter []) ++ behind := by
  unfold functionText at h
  cases hs : d.signature with
  | none => simp [hs] at h
  | some s =>
    simp only [hs] at h
    split_ifs at h
    · obtain rfl := Except.ok.inj h
      exact ⟨s, [], rfl, Or.inl rfl, (List.append_nil _).symm⟩
    · obtain rfl := Except.ok.inj h
      exact ⟨s, _, rfl, Or.inr rfl, List.append_assoc ..⟩

/-- A function with the form of a method is declared as a call. -/
lemma declaresCall_of_method {s : Signature} {behind : Text} (hform : s.form = some .method)
    (hcallable : Callable s) (hname : s.name = d.name)
    (htext : d.text = Comment.before d.comment ("declare function " ++ s.renderAfter []) ++ behind) :
    DeclaresCall d s behind := by
  cases htype : s.type with
  | function params returns arrow =>
    refine ⟨hform, params, returns, arrow, htype, ?_⟩
    rw [htext, Signature.renderAfter_method [] hform htype, hname]
    simp
  | _ =>
    have hfunction := hcallable hform
    simp [htype, TypeExpr.isFunction] at hfunction

/-- A function that is declared has the name and the signature of its description, and its text is laid
out as that of a function. -/
lemma parts_of_function {s : Symbol} (h : (ofSymbol settings s).value = (.ok d, s'))
    (hkind : d.kind = .functionKind) :
    s.kind = .functionKind ∧ d.name = s.name ∧ d.functionText = .ok d.text ∧
      ∃ header, (Description.ofEntry settings s.name s.toEntry false true).Returns header ∧
        d.signature = header.signature := by
  obtain ⟨header, ms, text, hheader, -, rfl, htext, rfl⟩ := ofSymbol_eq_ok.mp h
  have hs : s.kind = .functionKind := hkind
  rw [textOf, hkind, Run.returns_mk] at htext
  rw [decide_eq_true hs] at hheader
  exact ⟨hs, rfl, htext, header, hheader, rfl⟩

/-- How the function of a symbol is declared. -/
lemma declared_of_ofSymbol (he : Document.Completed document e)
    (h : (ofSymbol settings e.2).value = (.ok d, s')) (hkind : d.kind = .functionKind) :
    ∃ data s behind, (d.name, Json.object data) ∈ document ∧ d.signature = some s ∧
      IsBehind d behind ∧
      (Description.Marked settings (Document.textAt data (some "!doc")) →
        DeclaresType d s behind) ∧
      (¬ Description.Marked settings (Document.textAt data (some "!doc")) →
        DeclaresCall d s behind) := by
  obtain ⟨hfunction, hd, htext, header, hheader, hsignature⟩ := parts_of_function h hkind
  obtain ⟨data, hdata, hdoc⟩ := he.doc
  obtain ⟨s, hs, hmethod⟩ := he.function hfunction
  obtain ⟨hname, hcallable⟩ := he.signature s hs
  obtain ⟨s', hs', hkeeps, hform, -⟩ := Description.exists_signature hs hcallable hheader
  obtain ⟨sig, behind, hsig, hbehind, htext⟩ := functionText_eq_ok htext
  rw [hsignature, hs'] at hsig
  obtain rfl : s' = sig := Option.some.inj hsig
  have hnamed : s'.name = d.name :=
    hkeeps.name.trans (hname.trans (he.name.symm.trans hd.symm))
  have hkey : d.name = e.1 := hd.trans he.name
  rw [hdoc] at hform
  refine ⟨data, s', behind, hkey ▸ hdata, hsignature.trans hs', hbehind, fun hmarked => ?_,
    fun hmarked => ?_⟩
  · rw [if_pos ⟨hmethod, hmarked⟩] at hform
    refine ⟨hform, ?_⟩
    rw [htext, Signature.renderAfter_property [] hform, hnamed]
    simp
  · rw [if_neg fun hboth => hmarked hboth.2] at hform
    exact declaresCall_of_method (hform.trans hmethod)
      (hcallable.keeps hkeeps fun _ => hmethod) hnamed htext

/-! ### Globals -/

/-- A member of a symbol, with the signature that the rules give it, as it is declared. -/
structure Declares (settings : Settings) (member : Member) (s : Signature)
    (declared : DeclaredMember) : Prop where
  signature : member.signature = some s
  callable : Callable s
  keeps : Keeps s declared.signature
  form : declared.signature.form =
    if s.form = some .method ∧ Description.Marked settings member.shortDoc then some .property
    else s.form

/-- Members with callable signatures are declared as the rules say. -/
lemma exists_declares {owner : Text} {members : List (Text × Member)} {ms : List DescribedMember}
    (hms : DescribedMembers settings owner members ms)
    (hmembers : ∀ m ∈ members, ∃ s, m.2.signature = some s ∧ Callable s)
    {declared : Text × DeclaredMember} (h : declared ∈ ms.filterMap DescribedMember.declared?) :
    ∃ member s, (declared.1, member) ∈ members ∧ Declares settings member s declared.2 := by
  obtain ⟨m, hm, hdeclared⟩ := List.mem_filterMap.mp h
  obtain ⟨hkey, -, -, hsignature⟩ := declared_eq_some.mp hdeclared
  have hmem : (m.key, m.member) ∈ members := by
    rw [← hms.keyed]
    exact List.mem_map_of_mem hm
  obtain ⟨s, hs, hcallable⟩ := hmembers _ hmem
  obtain ⟨s', hs', hkeeps, hform, -⟩ :=
    Description.exists_signature hs hcallable (hms.described m hm)
  obtain rfl : s' = declared.2.signature := Option.some.inj (hs'.symm.trans hsignature)
  exact ⟨m.member, s, hkey ▸ hmem, hs, hcallable, hkeeps, hform⟩

/-- A declared method is one by the rules, and its documentation does not begin with the marker. -/
lemma Declares.isFunction_iff {member : Member} {s : Signature} {declared : DeclaredMember}
    (h : Declares settings member s declared) :
    declared.isFunction = true ↔
      s.form = some .method ∧ ¬ Description.Marked settings member.shortDoc := by
  rw [DeclaredMember.isFunction, decide_eq_true_eq, h.form]
  by_cases hmarked : Description.Marked settings member.shortDoc
  · by_cases hmethod : s.form = some .method
    · simp [hmarked, hmethod]
    · simp [hmethod]
  · simp [hmarked]

/-- Every declared member that can be called is a function. -/
lemma callable_of_mem_members (he : Document.Completed document e)
    (h : (ofSymbol settings e.2).value = (.ok d, s')) : ∀ m ∈ d.members, Callable m.2.signature := by
  obtain ⟨header, ms, text, -, hms, rfl, -, rfl⟩ := ofSymbol_eq_ok.mp h
  intro m hm
  have hdeclared := (Table.mem_of_mem_insertAll hm).resolve_left List.not_mem_nil
  obtain ⟨member, s, -, hdeclares⟩ := exists_declares hms he.members hdeclared
  refine hdeclares.callable.keeps hdeclares.keeps fun hmethod => ?_
  exact (hdeclares.isFunction_iff.mp (decide_eq_true hmethod)).1

/-- A member that is declared as a function under another name is declared as a call. -/
lemma declaresCall_ofMember {name : Text} {m : DeclaredMember} (hm : Callable m.signature)
    (hkind : (ofMember name m).kind = .functionKind) :
    ∃ s, (ofMember name m).signature = some s ∧ DeclaresCall (ofMember name m) s [] := by
  have hfunction : m.isFunction = true := by
    by_contra hno
    simp [ofMember, hno] at hkind
  have hform : m.signature.form = some .method := of_decide_eq_true hfunction
  refine ⟨{ m.signature with name, isStatic := false }, rfl, ?_⟩
  refine declaresCall_of_method hform hm rfl ?_
  simp [ofMember, DeclaredMember.word, hfunction]

/-- A declaration that is found by its name is one of those searched. -/
lemma mem_of_named? {name : Text} (h : named? ds name = some d) : d ∈ ds := by
  simpa using List.mem_of_find?_eq_some h

/-- A member that is found by its name is one of the members. -/
lemma mem_of_findMember? {name : Text} {m : DeclaredMember} (h : d.findMember? name = some m) :
    ∃ key, (key, m) ∈ d.members := by
  have hmem : m ∈ (Table.values d.members).filter fun m => m.name = name := by
    rcases Option.or_eq_some_iff.mp h with hfind | ⟨-, hhead⟩
    · exact List.mem_of_find?_eq_some hfind
    · exact List.mem_of_mem_head? hhead
  obtain ⟨⟨key, m'⟩, hm', rfl⟩ := List.mem_map.mp (List.mem_filter.mp hmem).1
  exact ⟨key, hm'⟩

/-- What a global of the kind of a function is: a definition, which has no signature, a member that is
declared as a call, or one of the declared functions under another name. -/
inductive FunctionGlobal (settings : Settings) (ds : List Declaration) (g : Declaration) : Prop
  | defined {data : Table Json} : (g.name, Json.object data) ∈ settings.globals →
      Table.get? data "aliasFor" = none → g.signature = none → FunctionGlobal settings ds g
  | member {s : Signature} : g.signature = some s → DeclaresCall g s [] →
      FunctionGlobal settings ds g
  | renamed {d : Declaration} : d ∈ ds → d.kind = .functionKind →
      (g.signature = d.signature.map fun s => { s with name := g.name }) →
      FunctionGlobal settings ds g

/-- A global of the kind of a function comes about in one of the three ways. -/
lemma functionGlobal_of_ofGlobal {name : Text} {v : Json} {g : Declaration}
    (hds : ∀ d ∈ ds, ∀ m ∈ d.members, Callable m.2.signature)
    (hv : (name, v) ∈ settings.globals) (h : ofGlobal ds name v = .ok g)
    (hkind : g.kind = .functionKind) : FunctionGlobal settings ds g := by
  have hname := name_of_ofGlobal h
  obtain ⟨data, rfl, ⟨target, halias⟩ | ⟨hnone, hdefinition⟩⟩ := exists_data_of_ofGlobal h
  · obtain ⟨owner, ownerName, howner, hrenamed | ⟨memberName, m, hm, rfl⟩⟩ :=
      declares_of_aliasTo halias
    · obtain ⟨lines, -, rfl⟩ := Option.map_eq_some_iff.mp hrenamed
      exact .renamed (mem_of_named? howner) hkind rfl
    · obtain ⟨key, hmem⟩ := mem_of_findMember? hm
      obtain ⟨s, hs, hcall⟩ :=
        declaresCall_ofMember (hds owner (mem_of_named? howner) _ hmem) hkind
      exact .member hs hcall
  · exact .defined (hname ▸ hv) hnone (spec_of_ofDefinition hdefinition).2

end Declaration

namespace Output

variable {settings : Settings} {document : Table Json} {o : Output}

/-- Every function of a document is declared as a call, unless its documentation begins with the
marker of a property: then a type stands behind its name.  A function among the globals is a
definition of the settings, a method, or one of these functions under another name. -/
theorem calls_of_returns (h : (ofDocument settings document).Returns o) :
    (∀ d ∈ o.declarations, d.kind = .functionKind →
      ∃ data s behind, (d.name, Json.object data) ∈ document ∧ d.signature = some s ∧
        Declaration.IsBehind d behind ∧
        (Description.Marked settings (Document.textAt data (some "!doc")) →
          Declaration.DeclaresType d s behind) ∧
        (¬ Description.Marked settings (Document.textAt data (some "!doc")) →
          Declaration.DeclaresCall d s behind)) ∧
    ∀ g ∈ o.globals, g.kind = .functionKind →
      Declaration.FunctionGlobal settings o.declarations g := by
  obtain ⟨all, symbols, ds, gs, hall, hvalue, hgs, rfl⟩ := returns_ofDocument.mp h
  have hcompleted := Document.completed_symbols hall
  have hdeclared : ∀ d ∈ ds, ∃ e ∈ all, ∃ s',
      (Declaration.ofSymbol settings e.2).value = (.ok d, s') := fun d hd =>
    exists_of_mem_forall₂ (Declaration.forall₂_of_ofSymbols hvalue).1 hd
  constructor
  · intro d hd hkind
    obtain ⟨e, he, s', hvalue⟩ := hdeclared d hd
    exact Declaration.declared_of_ofSymbol (hcompleted e he) hvalue hkind
  · intro g hg hkind
    have hds : ∀ d ∈ ds, ∀ m ∈ d.members, Callable m.2.signature := by
      intro d hd
      obtain ⟨e, he, s', hvalue⟩ := hdeclared d hd
      exact Declaration.callable_of_mem_members (hcompleted e he) hvalue
    obtain ⟨⟨name, v⟩, hv, hglobal⟩ := exists_of_mem_forall₂ (Except.mapM_eq_ok.mp hgs) hg
    exact Declaration.functionGlobal_of_ofGlobal hds hv hglobal hkind

/-- A document of one function, given what it says about it. -/
def printDocument (doc : Text) : Table Json :=
  [("print", .object [("!type", .text "fn(text: string)"), ("!doc", .text doc)])]

/-- The function `print`, documented by a sentence, is declared as a call. -/
theorem calls_of_returns_print :
    ∃ o d s behind, (ofDocument { globals := [] } (printDocument "Prints a text.")).Returns o ∧
      d ∈ o.declarations ∧ d.kind = .functionKind ∧ d.signature = some s ∧
      Declaration.DeclaresCall d s behind := by
  have hkinds : ((ofDocument { globals := [] } (printDocument "Prints a text.")).run.value.toOption.map
      fun o => o.declarations.map (·.kind)) = some [.functionKind] := by
    decide +kernel
  obtain ⟨o, ho, hkind⟩ := Option.map_eq_some_iff.mp hkinds
  rw [← Run.returns_iff_toOption] at ho
  obtain ⟨d, hd, hdkind⟩ := List.map_eq_singleton_iff.mp hkind
  have hmem : d ∈ o.declarations := by simp [hd]
  obtain ⟨data, s, behind, hdata, hs, -, -, hcall⟩ := (calls_of_returns ho).1 d hmem hdkind
  simp only [printDocument, List.mem_singleton, Prod.mk.injEq, Json.object.injEq] at hdata
  obtain ⟨-, rfl⟩ := hdata
  exact ⟨o, d, s, behind, ho, hmem, hdkind, hs, hcall (by decide)⟩

/-- A function whose documentation begins with the marker has the form of a property and is declared
with a type behind its name. -/
theorem declarations_markedPrint :
    ∃ o d, (ofDocument { globals := [] } (printDocument "(property) Prints a text.")).Returns o ∧
      d ∈ o.declarations ∧ d.kind = .functionKind ∧
      d.signature.bind (·.form) = some .property ∧
      d.text = "/**\n * Prints a text.\n */\ndeclare function print: (text: string) => void" := by
  have hparts : ((ofDocument { globals := [] }
      (printDocument "(property) Prints a text.")).run.value.toOption.map fun o =>
        o.declarations.map fun d => (d.kind, d.signature.bind (·.form), d.text)) =
      some [(SymbolKind.functionKind, some SignatureForm.property,
        ("/**\n * Prints a text.\n */\ndeclare function print: (text: string) => void" : Text))] := by
    decide +kernel
  obtain ⟨o, ho, hdeclared⟩ := Option.map_eq_some_iff.mp hparts
  rw [← Run.returns_iff_toOption] at ho
  obtain ⟨d, hd, hd'⟩ := List.map_eq_singleton_iff.mp hdeclared
  simp only [Prod.mk.injEq] at hd'
  exact ⟨o, d, ho, by simp [hd], hd'⟩

end Output

end Ambient
