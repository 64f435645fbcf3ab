import Mathlib
import Ambient.Declaration.Output
import Ambient.Proofs.Declaration.Emission
import Ambient.Proofs.Symbol.Document

/-!
# Symbols in isolation

What is declared for a symbol depends on its own data alone: if two documents differ in the data of
one symbol and in what their overlays say about it, all other symbols are declared in the same way
(`isolated`).  Each of the three passes over the symbols, which describe them, overlay them and
declare them, commutes with the restriction to the other names.  The names of a run are those of the
described symbols and of the globals, in this order (`names_of_returns`).
-/

namespace Ambient

open Table (keys restrict)

/-! ### Globals -/

namespace Declaration

variable {ds : List Declaration} {d d' : Declaration} {name target : Text} {v : Json}

lemma name_of_renamed (h : d.renamed? name = some d') : d'.name = name := by
  obtain ⟨lines, -, rfl⟩ := Option.map_eq_some_iff.mp h
  rfl

/-- Another name is given to a declaration or to one of its members. -/
lemma declares_of_aliasTo (h : aliasTo ds name target = .ok d) :
    ∃ owner ownerName, named? ds ownerName = some owner ∧
      (owner.renamed? name = some d ∨
        ∃ memberName m, owner.findMember? memberName = some m ∧ ofMember name m = d) := by
  simp only [aliasTo] at h
  split at h
  · cases h
  · next owner howner _ =>
    split_ifs at h
    cases hrenamed : owner.renamed? name with
    | none =>
      rw [hrenamed] at h
      cases h
    | some d' =>
      rw [hrenamed] at h
      obtain rfl := Except.ok.inj h
      exact ⟨owner, _, howner, Or.inl hrenamed⟩
  · next owner howner _ =>
    split_ifs at h
    split at h
    · next m hm => exact ⟨owner, _, howner, Or.inr ⟨_, m, hm, Except.ok.inj h⟩⟩
    · cases h

/-- An alias has its own name, whatever its target is called. -/
lemma name_of_aliasTo (h : aliasTo ds name target = .ok d) : d.name = name := by
  obtain ⟨owner, ownerName, -, hrenamed | ⟨memberName, m, -, rfl⟩⟩ := declares_of_aliasTo h
  · exact name_of_renamed hrenamed
  · rfl

/-- A definition has its own name and no signature. -/
lemma spec_of_ofDefinition {data : Table Json} (h : ofDefinition name data = .ok d) :
    d.name = name ∧ d.signature = none := by
  unfold ofDefinition at h
  obtain ⟨definition, -, h⟩ := Except.bind_eq_ok.mp h
  dsimp only at h
  by_cases hempty : List.isEmpty definition.trim = true
  · rw [if_pos hempty] at h
    cases h
  · rw [if_neg hempty] at h
    simp only [Except.bind_eq_ok, Except.pure_eq_ok] at h
    obtain ⟨_, -, _, -, _, -, _, -, rfl⟩ := h
    exact ⟨rfl, rfl⟩

/-- A global is another name for something declared, or it says what it is. -/
lemma exists_data_of_ofGlobal (h : ofGlobal ds name v = .ok d) :
    ∃ data, v = .object data ∧
      ((∃ target, aliasTo ds name target = .ok d) ∨
        (Table.get? data "aliasFor" = none ∧ ofDefinition name data = .ok d)) := by
  unfold ofGlobal at h
  split at h
  · next data =>
    refine ⟨data, rfl, ?_⟩
    split at h
    · next target _ =>
      unfold resolveAlias at h
      cases halias : aliasTo ds name target with
      | error fault =>
        rw [halias] at h
        cases h
      | ok d' =>
        rw [halias] at h
        obtain rfl := Except.ok.inj h
        exact Or.inl ⟨target, halias⟩
    · cases h
    · next hnone => exact Or.inr ⟨hnone, h⟩
  · split_ifs at h
  · split_ifs at h
  · cases h

/-- A global is declared under its key. -/
lemma name_of_ofGlobal (h : ofGlobal ds name v = .ok d) : d.name = name := by
  obtain ⟨data, -, ⟨target, halias⟩ | ⟨-, hdefinition⟩⟩ := exists_data_of_ofGlobal h
  · exact name_of_aliasTo halias
  · exact (spec_of_ofDefinition hdefinition).1

/-- The globals are declared in the order of their table. -/
lemma names_of_ofGlobals {table : Table Json} {gs : List Declaration}
    (h : ofGlobals ds table = .ok gs) : gs.map (·.name) = keys table := by
  have hnames : List.Forall₂ Eq (gs.map (·.name)) (keys table) :=
    List.rel_map (fun d e hde => name_of_ofGlobal hde) (Except.mapM_eq_ok.mp h).flip
  rwa [List.forall₂_eq_eq_eq] at hnames

end Declaration

namespace Document

/-! ### Documents that differ in one symbol -/

/-- Documents with the same keys in the same order that differ under `key` alone and in what their
overlays say about `key`. -/
structure AgreeApartFrom (key : Text) (document document' : Table Json) : Prop where
  data : List.Forall₂ (fun m m' => m'.1 = m.1 ∧ (m.1 = key ∨ m.1 = ("!define" : Text) ∨ m'.2 = m.2))
    document document'
  overlay : ∀ overlay overlay', overlayOf document none = .ok overlay →
    overlayOf document' none = .ok overlay' →
    restrict (· ≠ key) overlay = restrict (· ≠ key) overlay'

lemma symbolData_cons (m : Text × Json) (document : Table Json) :
    symbolData (m :: document) = symbolData [m] ++ symbolData document :=
  List.filterMap_append (l := [m]) ..

/-- What describes no other symbol than `key`, and what describes the document, is of no account. -/
lemma restrict_symbolData_singleton {key : Text} {m m' : Text × Json} (hkey : m'.1 = m.1)
    (h : m.1 = key ∨ m.1 = ("!define" : Text) ∨ m'.2 = m.2) :
    restrict (· ≠ key) (symbolData [m]) = restrict (· ≠ key) (symbolData [m']) := by
  have hnone : ∀ m : Text × Json, m.1 = key ∨ m.1 = ("!define" : Text) →
      restrict (· ≠ key) (symbolData [m]) = [] := by
    rintro m (hm | hm)
    · rw [restrict, List.filter_eq_nil_iff]
      rintro ⟨name, data⟩ hd
      have hname : name = m.1 := congrArg Prod.fst
        (List.mem_singleton.mp (object_mem_of_mem_symbolData hd))
      simp [hname, hm]
    · have hreserved : isReserved m.1 = true := by
        rw [hm]
        rfl
      simp [symbolData, hreserved]
  rcases h with h | h | h
  · rw [hnone m (Or.inl h), hnone m' (Or.inl (hkey.trans h))]
  · rw [hnone m (Or.inr h), hnone m' (Or.inr (hkey.trans h))]
  · rw [Prod.ext hkey h]

/-- Documents that differ in one symbol describe the other symbols alike. -/
lemma AgreeApartFrom.symbolData_eq {key : Text} {document document' : Table Json}
    (h : AgreeApartFrom key document document') :
    restrict (· ≠ key) (symbolData document) = restrict (· ≠ key) (symbolData document') := by
  obtain ⟨hdata, -⟩ := h
  induction hdata with
  | nil => rfl
  | @cons m m' document document' hm _ ih =>
    rw [symbolData_cons m, symbolData_cons m', Table.restrict_append, Table.restrict_append, ih,
      restrict_symbolData_singleton hm.1 hm.2]

end Document

namespace Output

variable {settings : Settings} {document document' : Table Json} {o o' : Output} {key : Text}

/-- The steps of a run. -/
lemma returns_ofDocument :
    (ofDocument settings document).Returns o ↔
      ∃ all symbols ds gs, (Document.symbols settings document none).Returns all ∧
        (Declaration.ofSymbols settings all).value = (.ok ds, symbols) ∧
        Declaration.ofGlobals ds settings.globals = .ok gs ∧
        o = ofDeclarations settings symbols ds gs := by
  simp only [ofDocument, Run.returns_bind, Run.returns_ofLogged, Run.returns_mk, Run.returns_pure]
  constructor
  · rintro ⟨all, hall, ⟨_, symbols⟩, hvalue, ds, rfl, gs, hgs, rfl⟩
    exact ⟨all, symbols, ds, gs, hall, hvalue, hgs, rfl⟩
  · rintro ⟨all, symbols, ds, gs, hall, hvalue, hgs, rfl⟩
    exact ⟨all, hall, (.ok ds, symbols), hvalue, ds, rfl, gs, hgs, rfl⟩

/-- The names of a run: those of the entries of the document that describe symbols, then those of the
globals. -/
lemma names_of_returns (h : (ofDocument settings document).Returns o) :
    o.names = keys (document.filter Document.describesSymbol) ++ keys settings.globals := by
  obtain ⟨all, symbols, ds, gs, hall, hvalue, hgs, rfl⟩ := returns_ofDocument.mp h
  have hdeclared : List.Forall₂ Eq (ds.map (·.name)) (all.map fun e => e.2.name) :=
    List.rel_map (fun d e ⟨s', hd⟩ => Declaration.name_of_ofSymbol hd)
      (Declaration.forall₂_of_ofSymbols hvalue).1.flip
  rw [List.forall₂_eq_eq_eq] at hdeclared
  have hkeys : (all.map fun e => e.2.name) = keys all :=
    List.map_congr_left fun e he => Document.named_symbols hall e he
  rw [names, ofDeclarations, List.map_append, hdeclared, hkeys, Document.keys_symbols hall,
    Document.keys_symbolData, Declaration.names_of_ofGlobals hgs]

/-- The declarations with other names than `key` are those of the symbols with other names. -/
lemma forall₂_declarations_apart (key : Text) {all : Table Symbol} {ds : List Declaration}
    (hall : (Document.symbols settings document none).Returns all)
    (hds : List.Forall₂ (fun e d => ∃ s', (Declaration.ofSymbol settings e.2).value = (.ok d, s'))
      all ds) :
    List.Forall₂ (fun e d => ∃ s', (Declaration.ofSymbol settings e.2).value = (.ok d, s'))
      (restrict (· ≠ key) all) (ds.filter (·.name ≠ key)) := by
  have hnamed : List.Forall₂ (fun e d => d.name = e.1 ∧
      ∃ s', (Declaration.ofSymbol settings e.2).value = (.ok d, s')) all ds := by
    refine ((List.forall₂_and_left ..).mpr ⟨Document.named_symbols hall, hds⟩).imp ?_
    rintro e d ⟨hname, s', hd⟩
    exact ⟨(Declaration.name_of_ofSymbol hd).trans hname, s', hd⟩
  have hapart := List.rel_filter (p := fun e => decide (e.1 ≠ key))
    (q := fun d => decide (d.name ≠ key)) (fun e d hed => by simp only [hed.1]) hnamed
  exact hapart.imp fun e d hed => hed.2

/-- What two documents that agree apart from one symbol declare for all others. -/
lemma declared_apart (hagree : Document.AgreeApartFrom key document document')
    (h : (ofDocument settings document).Returns o) (h' : (ofDocument settings document').Returns o') :
    restrict (· ≠ key) o.symbols = restrict (· ≠ key) o'.symbols ∧
      o.declarations.filter (·.name ≠ key) = o'.declarations.filter (·.name ≠ key) := by
  obtain ⟨all, symbols, ds, gs, hall, hvalue, -, rfl⟩ := returns_ofDocument.mp h
  obtain ⟨all', symbols', ds', gs', hall', hvalue', -, rfl⟩ := returns_ofDocument.mp h'
  obtain ⟨hds, hsymbols⟩ := Declaration.forall₂_of_ofSymbols hvalue
  obtain ⟨hds', hsymbols'⟩ := Declaration.forall₂_of_ofSymbols hvalue'
  have hsame : restrict (· ≠ key) all = restrict (· ≠ key) all' := by
    obtain ⟨_, overlay, _, -, ho, -⟩ := Document.returns_symbols.mp hall
    obtain ⟨_, overlay', _, -, ho', -⟩ := Document.returns_symbols.mp hall'
    exact Document.symbols_restrict_eq hall hall' ho ho' hagree.symbolData_eq
      (hagree.overlay overlay overlay' ho ho')
  constructor
  · have hr := Table.forall₂_restrict (P := (· ≠ key)) (fun _ _ he => he.1) hsymbols
    have hr' := Table.forall₂_restrict (P := (· ≠ key)) (fun _ _ he => he.1) hsymbols'
    rw [hsame] at hr
    refine List.right_unique_forall₂' ?_ hr hr'
    rintro e x y ⟨hx, d, hd⟩ ⟨hy, d', hd'⟩
    exact Prod.ext (hx.trans hy.symm) (Prod.mk.inj (hd.symm.trans hd')).2
  · have hr := forall₂_declarations_apart key hall hds
    have hr' := forall₂_declarations_apart key hall' hds'
    rw [hsame] at hr
    refine List.right_unique_forall₂' ?_ hr hr'
    rintro e d d' ⟨s', hd⟩ ⟨s'', hd'⟩
    exact Except.ok.inj (Prod.mk.inj (hd.symm.trans hd')).1

/-- Symbols are translated in isolation and in order: what is declared for all symbols but one does not
depend on the data and the overlay of that one, and the names of a run and of its linter are those of
the symbols in the order of the document, of the globals in the order of their table, and of what is
reserved. -/
theorem isolated (settings : Settings) :
    (∀ key document document' o o', Document.AgreeApartFrom key document document' →
      (ofDocument settings document).Returns o → (ofDocument settings document').Returns o' →
      restrict (· ≠ key) o.symbols = restrict (· ≠ key) o'.symbols ∧
        o.declarations.filter (·.name ≠ key) = o'.declarations.filter (·.name ≠ key)) ∧
    ∀ document o, (ofDocument settings document).Returns o →
      o.names = keys (document.filter Document.describesSymbol) ++ keys settings.globals ∧
      lintConfiguration o.names settings.reserved = .object [("globals", .object
        ((keys (document.filter Document.describesSymbol) ++ keys settings.globals
          ++ settings.reserved).eraseDups.map fun name => (name, .text "readonly")))] := by
  refine ⟨fun key document document' o o' hagree h h' => declared_apart hagree h h', ?_⟩
  intro document o h
  have hnames := names_of_returns h
  exact ⟨hnames, by rw [hnames]; rfl⟩

/-- A document of a box and a pen with details of its own, given what describes the box and what the
overlay says. -/
def boxAndPen (box overlay : Json) : Table Json :=
  [("Box", box), ("details", .object [("size", .object [("!type", .text "number")])]),
    ("Pen", .object [("!type", .text "fn()")]), ("!define", overlay)]

/-- A box with one property. -/
def boxOfProperty : Table Json :=
  boxAndPen (.object [("size", .object [("!type", .text "number")])]) (.object [])

/-- A box with two functions, one of them from the overlay. -/
def boxOfFunctions : Table Json :=
  boxAndPen (.object [("size", .object [("!type", .text "fn() -> number")])])
    (.object [("Box", .object [("fill", .object [("!type", .text "fn()")])])])

/-- A box whose property becomes a function, with a second function of the overlay, beside a pen. -/
theorem isolated_boxAndPen :
    ∃ o o', (ofDocument { globals := [] } boxOfProperty).Returns o ∧
      (ofDocument { globals := [] } boxOfFunctions).Returns o' ∧
      restrict (· ≠ "Box") o.symbols = restrict (· ≠ "Box") o'.symbols ∧
      (o.declarations.filter fun d => d.name ≠ ("Box" : Text)) =
        (o'.declarations.filter fun d => d.name ≠ ("Box" : Text)) ∧
      o.names = [("Box" : Text), ("Pen" : Text)] := by
  have hreturns : (ofDocument { globals := [] } boxOfProperty).run.value.toOption.isSome ∧
      (ofDocument { globals := [] } boxOfFunctions).run.value.toOption.isSome := by
    decide +kernel
  obtain ⟨o, ho⟩ := Option.isSome_iff_exists.mp hreturns.1
  obtain ⟨o', ho'⟩ := Option.isSome_iff_exists.mp hreturns.2
  rw [← Run.returns_iff_toOption] at ho ho'
  have hagree : Document.AgreeApartFrom "Box" boxOfProperty boxOfFunctions := by
    constructor
    · exact .cons ⟨rfl, .inl rfl⟩ (.cons ⟨rfl, .inr (.inr rfl)⟩ (.cons ⟨rfl, .inr (.inr rfl)⟩
        (.cons ⟨rfl, .inr (.inl rfl)⟩ .nil)))
    · intro overlay overlay' h h'
      cases h
      cases h'
      rfl
  obtain ⟨hsymbols, hdeclarations⟩ :=
    (isolated { globals := [] }).1 "Box" boxOfProperty boxOfFunctions o o' hagree ho ho'
  obtain ⟨hnames, -⟩ := (isolated { globals := [] }).2 boxOfProperty o ho
  exact ⟨o, o', ho, ho', hsymbols, hdeclarations, hnames.trans (by decide)⟩

end Output

end Ambient
