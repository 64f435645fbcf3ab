import Mathlib
import Ambient.Proofs.Run
import Ambient.Proofs.Table
import Ambient.Symbol.Document

/-!
# The members that data describe

The data of a symbol describe members, and the symbol gets them one after another.  Describing can
fail and adding cannot, so attaching all members is describing all of them first and adding them
then (`attachAll_eq_ok`).  What is added changes the two tables of members and nothing else of the
symbol (`foldl_addMember`): the properties go to the one and the functions to the other, each under
its key.
-/

namespace Ambient

open Table (keys insertAll)

namespace Symbol

/-! ### Adding -/

/-- The members of a list that `p` holds of, with their keys. -/
def keyed (p : Member → Bool) (ms : List Member) : List (Text × Member) :=
  (ms.filter p).map fun m => (m.key, m)

/-- A key is that of a member of the list that `p` holds of. -/
lemma mem_keys_keyed {p : Member → Bool} {ms : List Member} {key : Text} :
    key ∈ keys (keyed p ms) ↔ ∃ m ∈ ms, p m = true ∧ m.key = key := by
  simp [keys, keyed, and_assoc]

/-- Whether a member is kept among the functions. -/
def isCalled (m : Member) : Bool :=
  m.toEntry.isFunction

/-- Adding several members puts each of them into its table. -/
lemma foldl_addMember (s : Symbol) (ms : List Member) :
    ms.foldl addMember s = { s with
      properties := insertAll s.properties (keyed (fun m => !isCalled m) ms)
      functions := insertAll s.functions (keyed isCalled ms) } := by
  induction ms generalizing s with
  | nil => rfl
  | cons m ms ih =>
    rw [List.foldl_cons, ih]
    cases h : isCalled m <;>
      · have hcalled : m.toEntry.isFunction = _ := h
        simp [addMember, hcalled, keyed, h, Table.insertAll_cons]

/-- Members of two lists in a row are keyed one list after the other. -/
lemma keyed_append {p : Member → Bool} {ms ms' : List Member} :
    keyed p (ms ++ ms') = keyed p ms ++ keyed p ms' := by
  simp [keyed]

end Symbol

namespace Document

variable {settings : Settings} {s s' : Symbol} {key : Text} {v : Json} {data data' : Table Json}

/-! ### Describing -/

/-- The member that an object describes under a key. -/
def memberOf (settings : Settings) (key : Text) (data : Table Json) : Except Failure Member := do
  let (name, isStatic) := memberName key
  let e ← entry settings name data
  let isStatic := isStatic || (valueAt data (some "!static")).isPresent
  return { toEntry := e, isStatic }

/-- The objects in the data of a symbol that describe members, with their keys. -/
def memberData (data : Table Json) : List (Text × Table Json) :=
  data.filterMap fun m =>
    if isReserved m.1 then none else m.2.members?.map fun object => (m.1, object)

/-- The members that the data of a symbol describe, in their order. -/
def membersIn (settings : Settings) (data : Table Json) : Except Failure (List Member) :=
  (memberData data).mapM fun m => memberOf settings m.1 m.2

/-- Data in a row describe the members of one and then of the other. -/
lemma membersIn_append {ms ms' : List Member} (h : membersIn settings data = .ok ms)
    (h' : membersIn settings data' = .ok ms') :
    membersIn settings (data ++ data') = .ok (ms ++ ms') := by
  have hdata : memberData (data ++ data') = memberData data ++ memberData data' :=
    List.filterMap_append
  unfold membersIn at h h' ⊢
  rw [hdata, List.mapM_append, h, h']
  rfl

/-! ### Attaching -/

/-- An object adds the member that it describes. -/
lemma attach_object :
    attach settings s key (.object data) = (memberOf settings key data).map s.addMember := by
  cases hname : memberName key with
  | mk name isStatic =>
    simp only [attach, memberOf, hname]
    cases entry settings name data <;> rfl

/-- What is no object adds nothing. -/
lemma attach_of_no_object (h : v.members? = none) : attach settings s key v = .ok s := by
  cases v with
  | object => simp [Json.members?] at h
  | _ => rfl

/-- The first entry is added before the others, unless its key is reserved. -/
lemma attachAll_cons (m : Text × Json) :
    attachAll settings s (m :: data) =
      if isReserved m.1 then attachAll settings s data
      else attach settings s m.1 m.2 >>= fun s => attachAll settings s data := by
  unfold attachAll
  cases h : isReserved m.1 <;> simp [h]

/-- Data in a row are added one after the other. -/
lemma attachAll_append :
    attachAll settings s (data ++ data') =
      attachAll settings s data >>= fun s => attachAll settings s data' := by
  simp [attachAll]

/-- Attaching all members is describing all of them and then adding them. -/
lemma attachAll_eq_ok :
    attachAll settings s data = .ok s' ↔
      ∃ ms, membersIn settings data = .ok ms ∧ ms.foldl Symbol.addMember s = s' := by
  induction data generalizing s with
  | nil => simp [attachAll, membersIn, memberData, Except.pure_eq_ok]
  | cons m data ih =>
    obtain ⟨key, v⟩ := m
    rw [attachAll_cons]
    by_cases hreserved : isReserved key = true
    · have hmembers : membersIn settings ((key, v) :: data) = membersIn settings data := by
        simp [membersIn, memberData, hreserved]
      rw [if_pos hreserved, hmembers, ih]
    · rw [if_neg hreserved]
      cases hv : v.members? with
      | none =>
        have hmembers : membersIn settings ((key, v) :: data) = membersIn settings data := by
          simp [membersIn, memberData, hreserved, hv]
        rw [attach_of_no_object hv, hmembers, ← ih]
        rfl
      | some object =>
        obtain rfl : v = .object object := by
          cases v <;> simp_all [Json.members?]
        have hmembers : membersIn settings ((key, .object object) :: data) =
            memberOf settings key object >>= fun m => membersIn settings data >>= fun ms =>
              pure (m :: ms) := by
          simp [membersIn, memberData, hreserved, Json.members?]
        simp only [attach_object, hmembers, Except.bind_eq_ok, Except.map_eq_ok, Except.pure_eq_ok, ih]
        constructor
        · rintro ⟨_, ⟨m, hm, rfl⟩, ms, hms, rfl⟩
          exact ⟨m :: ms, ⟨m, hm, ms, hms, rfl⟩, rfl⟩
        · rintro ⟨_, ⟨m, hm, ms, hms, rfl⟩, rfl⟩
          exact ⟨_, ⟨m, hm, rfl⟩, ms, hms, rfl⟩

/-- An entry has the name that it is read under. -/
lemma name_of_entry {name : Text} {e : Entry} (h : entry settings name data = .ok e) :
    e.name = name := by
  simp only [entry, Except.bind_eq_ok, Except.pure_eq_ok] at h
  obtain ⟨_, -, _, -, _, -, rfl⟩ := h
  rfl

/-! ### The symbol of an object -/

/-- The kind of a symbol with this name in front of its classification. -/
def kindOfName (name : Text) : SymbolKind :=
  if name.startsCapital then .classKind else .varKind

/-- A symbol is its entry with all members of its data, its own type translated. -/
lemma symbol_eq_ok {name : Text} :
    symbol settings name data = .ok s ↔
      ∃ e ms, entry settings name data = .ok e ∧ membersIn settings data = .ok ms ∧
        s = translateOwn settings
          (ms.foldl Symbol.addMember { toEntry := e, kind := kindOfName name }) := by
  simp only [symbol, Except.bind_eq_ok, attachAll_eq_ok, Except.pure_eq_ok]
  constructor
  · rintro ⟨e, he, _, ⟨ms, hms, rfl⟩, rfl⟩
    exact ⟨e, ms, he, hms, rfl⟩
  · rintro ⟨e, ms, he, hms, rfl⟩
    exact ⟨e, he, _, ⟨ms, hms, rfl⟩, rfl⟩

/-! ### The signature of a symbol -/

/-- Translating the type of a symbol leaves its properties. -/
lemma translateOwn_properties (s : Symbol) :
    (translateOwn settings s).properties = s.properties := by
  unfold translateOwn
  split_ifs <;> rfl

/-- Translating the type of a symbol leaves its functions. -/
lemma translateOwn_functions (s : Symbol) :
    (translateOwn settings s).functions = s.functions := by
  unfold translateOwn
  split_ifs <;> rfl

/-- Translating the type of a symbol leaves its name. -/
lemma translateOwn_name (s : Symbol) : (translateOwn settings s).name = s.name := by
  unfold translateOwn
  split_ifs <;> rfl

/-- A symbol has the name that it is read under. -/
lemma name_of_symbol {name : Text} (h : symbol settings name data = .ok s) : s.name = name := by
  obtain ⟨e, ms, he, -, rfl⟩ := symbol_eq_ok.mp h
  rw [translateOwn_name, Symbol.foldl_addMember]
  exact name_of_entry he

end Document

end Ambient
