import Mathlib
import Ambient.Proofs.Symbol.Members

/-!
# The symbols of a document

The symbols that a document describes get the members of an overlay one symbol after another.  A step
of an overlay changes the symbol it names and no other, so that restricting the symbols and the
overlay to the same names gives the same symbols under these names (`overlaid_restrict`).  With one
name this says what the members of a symbol are made of: the data of the document under that name
and, behind them, the data of the overlay (`mem_symbols`).
-/

namespace Ambient

open Table (keys restrict get?)

namespace Document

variable {settings : Settings} {document overlay : Table Json} {given : Option Json}
  {symbols all : Table Symbol} {name : Text} {v : Json}

/-! ### Overlays -/

/-- One step of an overlay: what it says about an unknown symbol is passed over, and a known symbol
gets the members of an object. -/
lemma returns_overlaid_cons :
    (overlaid settings symbols ((name, v) :: overlay)).Returns all ↔
      (get? symbols name = none ∧ (overlaid settings symbols overlay).Returns all) ∨
      ∃ s data s', get? symbols name = some s ∧ v = .object data ∧
        attachAll settings s data = .ok s' ∧
        (overlaid settings (Table.insert symbols name s') overlay).Returns all := by
  cases hget : get? symbols name with
  | none => simp [overlaid, hget, Run.returns_bind, Run.returns_warn]
  | some s =>
    cases v with
    | object data => simp [overlaid, hget, Run.returns_bind, Run.returns_mk]
    | _ => simp [overlaid, hget, Run.not_returns_throw]

/-- The symbols that `P` holds of are made of those data alone that `P` holds of. -/
lemma overlaid_restrict (P : Text → Bool) (h : (overlaid settings symbols overlay).Returns all) :
    (overlaid settings (restrict P symbols) (restrict P overlay)).Returns (restrict P all) := by
  induction overlay generalizing symbols with
  | nil =>
    obtain rfl : symbols = all := Run.returns_pure.mp h
    exact Run.returns_pure.mpr rfl
  | cons m overlay ih =>
    obtain ⟨name, v⟩ := m
    rcases returns_overlaid_cons.mp h with ⟨hget, h⟩ | ⟨s, data, s', hget, rfl, hs', h⟩
    · cases hP : P name with
      | false =>
        rw [Table.restrict_cons_of_neg hP]
        exact ih h
      | true =>
        rw [Table.restrict_cons_of_pos hP, returns_overlaid_cons]
        exact Or.inl ⟨(Table.get?_restrict hP).trans hget, ih h⟩
    · cases hP : P name with
      | false =>
        have hdropped := ih h
        rw [Table.restrict_insert, if_neg (by simp [hP])] at hdropped
        rwa [Table.restrict_cons_of_neg hP]
      | true =>
        rw [Table.restrict_cons_of_pos hP, returns_overlaid_cons]
        have hkept := ih h
        rw [Table.restrict_insert, if_pos hP] at hkept
        exact Or.inr ⟨s, data, s', (Table.get?_restrict hP).trans hget, rfl, hs', hkept⟩

/-- An overlay neither creates nor drops a symbol. -/
lemma keys_overlaid (h : (overlaid settings symbols overlay).Returns all) :
    keys all = keys symbols := by
  induction overlay generalizing symbols with
  | nil =>
    obtain rfl : symbols = all := Run.returns_pure.mp h
    rfl
  | cons m overlay ih =>
    obtain ⟨name, v⟩ := m
    rcases returns_overlaid_cons.mp h with ⟨-, h⟩ | ⟨s, data, s', hget, rfl, -, h⟩
    · exact ih h
    · rw [ih h, Table.keys_insert, if_pos (Table.mem_keys_of_get? hget)]

lemma name_of_attachAll {s s' : Symbol} {data : Table Json}
    (h : attachAll settings s data = .ok s') : s'.name = s.name := by
  obtain ⟨ms, -, rfl⟩ := attachAll_eq_ok.mp h
  rw [Symbol.foldl_addMember]

/-- An overlay keeps what holds of every symbol and is kept by new members. -/
lemma forall_overlaid {P : Text × Symbol → Prop}
    (hP : ∀ name s s' data, attachAll settings s data = .ok s' → P (name, s) → P (name, s'))
    (hsymbols : ∀ e ∈ symbols, P e) (h : (overlaid settings symbols overlay).Returns all) :
    ∀ e ∈ all, P e := by
  induction overlay generalizing symbols with
  | nil =>
    obtain rfl : symbols = all := Run.returns_pure.mp h
    exact hsymbols
  | cons m overlay ih =>
    obtain ⟨name, v⟩ := m
    rcases returns_overlaid_cons.mp h with ⟨-, h⟩ | ⟨s, data, s', hget, rfl, hs', h⟩
    · exact ih hsymbols h
    · refine ih (fun e he => ?_) h
      rcases Table.mem_of_mem_insert he with rfl | he
      · exact hP name s s' data hs' (hsymbols _ (Table.mem_of_get? hget))
      · exact hsymbols e he

/-- The data of several values, one behind the other. -/
def dataOf (entries : List (Text × Json)) : Table Json :=
  entries.flatMap fun m => m.2.members?.getD []

/-- With one symbol an overlay of that symbol attaches all its data. -/
lemma overlaid_singleton {s : Symbol} (hnames : ∀ m ∈ overlay, m.1 = name)
    (h : (overlaid settings [(name, s)] overlay).Returns all) :
    ∃ s', attachAll settings s (dataOf overlay) = .ok s' ∧ all = [(name, s')] := by
  induction overlay generalizing s with
  | nil =>
    obtain rfl : [(name, s)] = all := Run.returns_pure.mp h
    exact ⟨s, rfl, rfl⟩
  | cons m overlay ih =>
    obtain ⟨key, v⟩ := m
    obtain rfl : key = name := hnames _ List.mem_cons_self
    have hget : get? [(key, s)] key = some s := by simp [get?]
    rcases returns_overlaid_cons.mp h with ⟨hnone, -⟩ | ⟨s₀, data, s₁, hsome, rfl, hs₁, h⟩
    · simp [hget] at hnone
    · obtain rfl : s = s₀ := by simpa [hget] using hsome
      have hinsert : Table.insert [(key, s)] key s₁ = [(key, s₁)] := by simp [Table.insert]
      rw [hinsert] at h
      obtain ⟨s', hs', hall⟩ := ih (fun m hm => hnames m (List.mem_cons_of_mem _ hm)) h
      refine ⟨s', ?_, hall⟩
      have hdata : dataOf ((key, .object data) :: overlay) = data ++ dataOf overlay := rfl
      rw [hdata, attachAll_append, hs₁]
      exact hs'

/-! ### Whole documents -/

/-- What describes a symbol is an object of the document. -/
lemma object_mem_of_mem_symbolData {data : Table Json} (h : (name, data) ∈ symbolData document) :
    (name, Json.object data) ∈ document := by
  obtain ⟨⟨key, v⟩, hm, hv⟩ := List.mem_filterMap.mp h
  cases v <;> simp_all [Json.members?]

/-- The symbols of a document come from its data in two steps, and their members are translated. -/
lemma returns_symbols :
    (Document.symbols settings document given).Returns all ↔
      ∃ described overlay attached,
        List.Forall₂ (fun d e => e.1 = d.1 ∧ symbol settings d.1 d.2 = .ok e.2)
          (symbolData document) described ∧
        overlayOf document given = .ok overlay ∧
        (overlaid settings described overlay).Returns attached ∧
        all = attached.map fun s => (s.1, finish settings s.2) := by
  have hdescribed : ∀ (d : Text × Table Json) (e : Text × Symbol),
      ((symbol settings d.1 d.2).map fun s => (d.1, s)) = .ok e ↔
        e.1 = d.1 ∧ symbol settings d.1 d.2 = .ok e.2 := by
    intro d e
    rw [Except.map_eq_ok]
    constructor
    · rintro ⟨s, hs, rfl⟩
      exact ⟨rfl, hs⟩
    · rintro ⟨hkey, hs⟩
      exact ⟨e.2, hs, by rw [← hkey]⟩
  simp only [Document.symbols, Run.returns_bind, Run.returns_mk, Run.returns_pure,
    Except.mapM_eq_ok, hdescribed]
  constructor
  · rintro ⟨described, hd, overlay, ho, attached, ha, rfl⟩
    exact ⟨described, overlay, attached, hd, ho, ha, rfl⟩
  · rintro ⟨described, overlay, attached, hd, ho, ha, rfl⟩
    exact ⟨described, hd, overlay, ho, attached, ha, rfl⟩

/-- The symbols of a document stand under the keys of their data, in the order of these. -/
lemma keys_symbols (h : (Document.symbols settings document given).Returns all) :
    keys all = keys (symbolData document) := by
  obtain ⟨described, overlay, attached, hd, -, ha, rfl⟩ := returns_symbols.mp h
  have hkeys : keys described = keys (symbolData document) :=
    Table.keys_eq_of_forall₂ (fun _ _ hde => hde.1) hd
  rw [← hkeys, ← keys_overlaid ha]
  simp [keys]

/-- What holds of a symbol as the document describes it and is kept by new members gives, for every
symbol of the document, what follows from it when the members are translated. -/
lemma forall_symbols {P Q : Text × Symbol → Prop}
    (hsymbol : ∀ name data s, (name, Json.object data) ∈ document →
      symbol settings name data = .ok s → P (name, s))
    (hattach : ∀ name s s' data, attachAll settings s data = .ok s' → P (name, s) → P (name, s'))
    (hfinish : ∀ name s, P (name, s) → Q (name, finish settings s))
    (h : (Document.symbols settings document given).Returns all) : ∀ e ∈ all, Q e := by
  obtain ⟨described, overlay, attached, hd, -, ha, rfl⟩ := returns_symbols.mp h
  have hdescribed : ∀ e ∈ described, P e := by
    intro e he
    obtain ⟨⟨name, data⟩, hdata, hname, hs⟩ := exists_of_mem_forall₂ hd he
    obtain ⟨key, s⟩ := e
    obtain rfl : key = name := hname
    exact hsymbol key data s (object_mem_of_mem_symbolData hdata) hs
  have hattached : ∀ e ∈ attached, P e := forall_overlaid hattach hdescribed ha
  exact List.forall_mem_map.mpr fun e he => hfinish e.1 e.2 (hattached e he)

/-- Every symbol stands under its name. -/
lemma named_symbols (h : (Document.symbols settings document given).Returns all) :
    ∀ e ∈ all, e.2.name = e.1 :=
  forall_symbols (P := fun e => e.2.name = e.1) (fun _ _ _ _ hs => name_of_symbol hs)
    (fun _ _ _ _ hs' hname => (name_of_attachAll hs').trans hname) (fun _ _ hname => hname) h

/-- Documents and overlays that agree on the names that `P` holds of describe the same symbols with
these names. -/
lemma symbols_restrict_eq {P : Text → Bool} {document' overlay' : Table Json}
    {given' : Option Json} {all' : Table Symbol}
    (h : (Document.symbols settings document given).Returns all)
    (h' : (Document.symbols settings document' given').Returns all')
    (hoverlay : overlayOf document given = .ok overlay)
    (hoverlay' : overlayOf document' given' = .ok overlay')
    (hdata : restrict P (symbolData document) = restrict P (symbolData document'))
    (hrest : restrict P overlay = restrict P overlay') :
    restrict P all = restrict P all' := by
  obtain ⟨described, o, attached, hd, ho, ha, rfl⟩ := returns_symbols.mp h
  obtain ⟨described', o', attached', hd', ho', ha', rfl⟩ := returns_symbols.mp h'
  obtain rfl : o = overlay := Except.ok.inj (ho.symm.trans hoverlay)
  obtain rfl : o' = overlay' := Except.ok.inj (ho'.symm.trans hoverlay')
  have hdescribed : restrict P described = restrict P described' := by
    have hr := Table.forall₂_restrict (P := P) (fun _ _ hde => hde.1) hd
    have hr' := Table.forall₂_restrict (P := P) (fun _ _ hde => hde.1) hd'
    rw [← hdata] at hr'
    refine List.right_unique_forall₂' ?_ hr hr'
    rintro d e e' ⟨hkey, hs⟩ ⟨hkey', hs'⟩
    exact Prod.ext (hkey.trans hkey'.symm) (Except.ok.inj (hs.symm.trans hs'))
  have hattached : restrict P attached = restrict P attached' := by
    have hr := overlaid_restrict P ha
    have hr' := overlaid_restrict P ha'
    rw [hdescribed, hrest] at hr
    exact hr.unique hr'
  have hfinish : ∀ e : Text × Symbol, (e.1, finish settings e.2).1 = e.1 := fun _ => rfl
  rw [Table.restrict_map hfinish, Table.restrict_map hfinish, hattached]

/-! ### The entries of a document that describe symbols -/

/-- Whether an entry of a document describes a symbol: its key does not start with an exclamation mark,
is none of the three that describe the document, and holds an object. -/
def describesSymbol (m : Text × Json) : Bool :=
  m.1.head? != some '!' && m.1 != ("define" : Text) && m.1 != ("details" : Text)
    && m.1 != ("indexEntries" : Text) && m.2.members?.isSome

/-- An entry is passed over exactly if it describes no symbol. -/
lemma describesSymbol_eq (m : Text × Json) :
    describesSymbol m =
      (!(isReserved m.1 || documentKeys.contains m.1) && m.2.members?.isSome) := by
  rw [Bool.eq_iff_iff]
  simp [describesSymbol, isReserved, documentKeys, and_assoc]

/-- The keys of the data of symbols are those of the entries that describe one. -/
lemma keys_symbolData (document : Table Json) :
    keys (symbolData document) = keys (document.filter describesSymbol) := by
  rw [keys, keys, symbolData, List.map_filterMap, ← List.filterMap_eq_map', List.filterMap_filter]
  refine List.filterMap_congr fun m _ => ?_
  rw [describesSymbol_eq]
  cases isReserved m.1 || documentKeys.contains m.1 <;> cases m.2.members? <;> rfl

/-! ### Members -/

/-- Members with the signatures that their types declare. -/
def translated (settings : Settings) (owner : Text) (t : Table Member) : Table Member :=
  t.map fun m => (m.1, translateMember settings owner m.2)

/-- How one symbol of a document comes about: the document describes it, and the overlay adds to it
alone. -/
lemma steps_of_mem_symbols {s : Symbol} (hnodup : (keys document).Nodup)
    (h : (Document.symbols settings document given).Returns all) (hs : (name, s) ∈ all) :
    ∃ overlay data s₀ s₁, overlayOf document given = .ok overlay ∧
      restrict (· = name) document = [(name, .object data)] ∧
      symbol settings name data = .ok s₀ ∧
      attachAll settings s₀ (dataOf (restrict (· = name) overlay)) = .ok s₁ ∧
      s = finish settings s₁ := by
  have hkey : name ∈ keys (symbolData document) := by
    rw [← keys_symbols h]
    exact List.mem_map_of_mem hs
  obtain ⟨⟨key, data⟩, hdata, hfst⟩ := List.mem_map.mp hkey
  obtain rfl : key = name := hfst
  -- the data of the document under this key are those of one object
  have hsub : (keys (symbolData document)).Sublist (keys document) := by
    rw [keys_symbolData]
    exact List.filter_sublist.map Prod.fst
  have hown : restrict (· = key) (symbolData document) = [(key, data)] :=
    Table.restrict_eq_singleton (hnodup.sublist hsub) hdata
  have hraw : restrict (· = key) document = [(key, .object data)] :=
    Table.restrict_eq_singleton hnodup (object_mem_of_mem_symbolData hdata)
  -- so one symbol has this key, and the overlay adds to it alone
  obtain ⟨described, overlay, attached, hd, ho, ha, rfl⟩ := returns_symbols.mp h
  have hr := Table.forall₂_restrict (P := (· = key)) (fun _ _ hde => hde.1) hd
  rw [hown, List.forall₂_cons_left_iff] at hr
  obtain ⟨⟨key', s₀⟩, ds, ⟨hkey', hs₀⟩, hnil, hdescribed⟩ := hr
  obtain rfl : key' = key := hkey'
  obtain rfl := List.forall₂_nil_left_iff.mp hnil
  have hall := overlaid_restrict (· = key') ha
  rw [hdescribed] at hall
  have hnames : ∀ m ∈ restrict (· = key') overlay, m.1 = key' := fun m hm =>
    of_decide_eq_true (Table.mem_restrict.mp hm).2
  obtain ⟨s₁, hs₁, hattached⟩ := overlaid_singleton hnames hall
  obtain ⟨⟨key, s₂⟩, hx, heq⟩ := List.mem_map.mp hs
  obtain ⟨rfl, rfl⟩ := Prod.mk.inj heq
  have hmem : (key, s₂) ∈ restrict (· = key) attached :=
    Table.mem_restrict.mpr ⟨hx, decide_eq_true rfl⟩
  rw [hattached, List.mem_singleton, Prod.mk.injEq] at hmem
  exact ⟨overlay, data, s₀, s₁, ho, hraw, hs₀, hs₁, by rw [hmem.2]⟩

/-- What the members of a symbol are made of: they are described by the data of the document under
its name and of the overlay, in this order, and the properties among them are kept apart from the
functions. -/
lemma mem_symbols {e : Text × Symbol} (hnodup : (keys document).Nodup)
    (h : (Document.symbols settings document given).Returns all) (he : e ∈ all) :
    ∃ overlay ms, overlayOf document given = .ok overlay ∧
      membersIn settings (dataOf (restrict (· = e.1) (document ++ overlay))) = .ok ms ∧
      e.2.properties = translated settings e.1
        (Table.ofPairs (Symbol.keyed (fun m => !Symbol.isCalled m) ms)) ∧
      e.2.functions = translated settings e.1 (Table.ofPairs (Symbol.keyed Symbol.isCalled ms)) := by
  obtain ⟨overlay, data, s₀, s₁, ho, hdocument, hs₀, hs₁, hfinish⟩ := steps_of_mem_symbols hnodup h he
  obtain ⟨entry, ms, hentry, hms, rfl⟩ := symbol_eq_ok.mp hs₀
  obtain ⟨ms', hms', rfl⟩ := attachAll_eq_ok.mp hs₁
  have hname : entry.name = e.1 := name_of_entry hentry
  have hmembers : membersIn settings (dataOf (restrict (· = e.1) (document ++ overlay))) =
      .ok (ms ++ ms') := by
    rw [Table.restrict_append, hdocument]
    exact membersIn_append hms hms'
  refine ⟨overlay, ms ++ ms', ho, hmembers, ?_⟩
  simp [hfinish, finish, Symbol.foldl_addMember, translateOwn_name, translateOwn_properties,
    translateOwn_functions, hname, translated, Symbol.keyed_append, Table.ofPairs_eq_insertAll,
    Table.insertAll_append]

end Document

end Ambient
