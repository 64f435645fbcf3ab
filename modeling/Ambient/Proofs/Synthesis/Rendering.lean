import Mathlib
import Ambient.Proofs.Json.Grammar
import Ambient.Proofs.Synthesis.Interface
import Ambient.Proofs.Text.Lines

/-!
# What the text of an interface says

A field is printed as its key between quotation marks with its type behind it, and a comma and a line
break stand between two fields.  Nothing in a key is escaped, so a key may hold what stands between
two other keys, a `seam`: two fields are printed like a single one whose key is made of both
(`render_joined`).

Without seams the text determines the fields.  Nothing else that is printed behind a key holds a
quotation mark, so of two keys that are printed in front of the same text the longer one would hold
the seam behind the shorter one (`eq_of_append_ending`), and the fields are found one by one.
-/

namespace Ambient.Interface

/-! ### Seams -/

/-- What is printed between the keys of two fields. -/
def seam (optional : Bool) (type : SampleType) : Text :=
  ending optional type ++ ",\n\t\""

/-- A key in which no seam is found, the mark behind it included. -/
def SeamFree (key : Points) : Prop :=
  ∀ optional type, ¬ Text.points (seam optional type) <:+: key ++ [.char '"']

/-- Two fields as a single one, with the seam between their keys. -/
def joined (f g : InterfaceField) : InterfaceField :=
  { g with key := f.key ++ Text.points (seam f.optional f.type) ++ g.key }

/-- What is printed behind a field, the closing brace included. -/
def behind (isMixed : Bool) : List InterfaceField → Points
  | [] => Text.points ((if isMixed then ",\n" ++ indexLine else []) ++ ['\n', '}'])
  | f :: fs => Text.points ",\n" ++ fieldLine f ++ behind isMixed fs

/-- What is printed behind the opening brace. -/
def body (isMixed : Bool) : List InterfaceField → Points
  | [] => Text.points ((if isMixed then '\n' :: indexLine ++ ['\n'] else []) ++ ['}'])
  | f :: fs => .char '\n' :: (fieldLine f ++ behind isMixed fs)

section

variable {f g : InterfaceField} {fs gs : List InterfaceField} {m n o p : Bool} {t u : SampleType}
  {k l : Points} {v w : Text}

/-- The lines between the braces are printed one behind the other. -/
lemma intercalate_lines (f : InterfaceField) (fs : List InterfaceField) (m : Bool) :
    (Text.points ",\n").intercalate
        (fieldLine f :: (fs.map fieldLine ++ if m then [Text.points indexLine] else []))
        ++ Text.points ['\n', '}'] =
      fieldLine f ++ behind m fs := by
  induction fs generalizing f with
  | nil => cases m <;> simp [behind]
  | cons g fs ih =>
    rw [List.map_cons, List.cons_append, List.intercalate_cons_cons, List.append_assoc, ih, behind]
    simp

/-- The lines of an interface and the marks around them are what is printed behind the opening
brace. -/
lemma bodyLines_eq (i : Interface) :
    (if i.bodyLines.isEmpty then []
      else Text.points ['\n'] ++ (Text.points ",\n").intercalate i.bodyLines ++ Text.points ['\n'])
        ++ Text.points ['}'] = body i.isMixed i.fields := by
  have hlines : i.bodyLines = i.fields.map fieldLine ++
      if i.isMixed then [Text.points indexLine] else [] := rfl
  rw [hlines]
  cases i.fields with
  | nil => cases i.isMixed <;> simp [body]
  | cons f fs =>
    rw [body, ← intercalate_lines]
    simp

/-- An interface is printed as its name and what stands behind the opening brace. -/
lemma render_eq (i : Interface) :
    i.render = Text.points ("interface " ++ i.name ++ [' ', '{']) ++ body i.isMixed i.fields := by
  unfold render
  rw [List.append_assoc, bodyLines_eq]

/-! ### Two fields in one -/

/-- The field made of two is printed like the two. -/
lemma fieldLine_joined (f g : InterfaceField) :
    fieldLine (joined f g) = fieldLine f ++ Text.points ",\n" ++ fieldLine g := by
  simp [fieldLine, joined, seam]

/-- Two fields next to each other are printed like the two as one. -/
lemma behind_joined (m : Bool) (before after : List InterfaceField) (f g : InterfaceField) :
    behind m (before ++ f :: g :: after) = behind m (before ++ joined f g :: after) := by
  induction before with
  | nil => simp [behind, fieldLine_joined]
  | cons e before ih => rw [List.cons_append, List.cons_append, behind, behind, ih]

/-- Two fields next to each other are printed like a single one. -/
lemma render_joined (i : Interface) {before after : List InterfaceField}
    (h : i.fields = before ++ f :: g :: after) :
    i.render = ({ i with fields := before ++ joined f g :: after } : Interface).render := by
  rw [render_eq, render_eq, h]
  cases before with
  | nil => simp [body, behind, fieldLine_joined]
  | cons e before => rw [List.cons_append, List.cons_append, body, body, behind_joined]

/-! ### What stands behind a key -/

/-- All types of values in samples. -/
def sampleTypes : List SampleType :=
  [.null, .boolean, .number, .string, .booleans, .numbers, .strings, .list, .object]

lemma mem_sampleTypes (t : SampleType) : t ∈ sampleTypes := by
  cases t <;> decide

/-- The spellings of the types are all different. -/
lemma fieldText_inj (h : t.fieldText = u.fieldText) : t = u := by
  have hall : ∀ t ∈ sampleTypes, ∀ u ∈ sampleTypes, t.fieldText = u.fieldText → t = u := by decide
  exact hall t (mem_sampleTypes t) u (mem_sampleTypes u) h

/-- What stands behind a key tells whether it may be left out, and the type. -/
lemma ending_inj (h : ending m t = ending n u) : m = n ∧ t = u := by
  cases m <;> cases n
  case false.false => exact ⟨rfl, fieldText_inj (by simpa [ending] using h)⟩
  case true.true => exact ⟨rfl, fieldText_inj (by simpa [ending] using h)⟩
  all_goals simp [ending] at h

/-- Behind the mark that closes a key come no further mark, no comma and no line break. -/
lemma exists_ending (m : Bool) (t : SampleType) :
    ∃ e, ending m t = '"' :: e ∧ ∀ c ∈ e, c ≠ '"' ∧ c ≠ ',' ∧ c ≠ '\n' := by
  have hall : ∀ m : Bool, ∀ t ∈ sampleTypes,
      ((ending m t).drop 1).all (fun c => c != '"' && c != ',' && c != '\n') = true := by decide
  refine ⟨_, rfl, fun c hc => ?_⟩
  have := List.all_eq_true.mp (hall m t (mem_sampleTypes t)) c hc
  simpa [and_assoc] using this

/-- Behind a field stands a comma or a line break. -/
lemma head?_behind (m : Bool) (fs : List InterfaceField) :
    (behind m fs).head? = some (.char ',') ∨ (behind m fs).head? = some (.char '\n') := by
  cases fs with
  | nil => cases m <;> simp [behind]
  | cons f fs => exact Or.inl rfl

/-- Neither a comma nor a line break. -/
def isInside (p : Point) : Bool :=
  p != .char ',' && p != .char '\n'

/-- What is printed behind a key ends at the first comma or line break. -/
lemma takeWhile_ending_append (m : Bool) (t : SampleType) (o : Bool) (fs : List InterfaceField) :
    (Text.points (ending m t) ++ behind o fs).takeWhile isInside = Text.points (ending m t) := by
  obtain ⟨e, he, hall⟩ := exists_ending m t
  have hending : ∀ p ∈ Text.points (ending m t), isInside p = true := by
    rw [he]
    refine List.forall_mem_cons.mpr ⟨by decide, List.forall_mem_map.mpr fun c hc => ?_⟩
    simp [isInside, (hall c hc).2.1, (hall c hc).2.2]
  have hbehind : (behind o fs).takeWhile isInside = [] := by
    rcases head?_behind o fs with hhead | hhead
    all_goals
      obtain ⟨rest, hrest⟩ := List.head?_eq_some_iff.mp hhead
      rw [hrest]
      rfl
  rw [List.takeWhile_append_of_pos hending, hbehind, List.append_nil]

/-- What is printed behind a key determines whether the field may be left out, and its type. -/
lemma ending_append_inj
    (h : Text.points (ending m t) ++ behind o fs = Text.points (ending n u) ++ behind p gs) :
    m = n ∧ t = u ∧ behind o fs = behind p gs := by
  have hending := congrArg (List.takeWhile isInside) h
  rw [takeWhile_ending_append, takeWhile_ending_append, Text.points_inj] at hending
  obtain ⟨rfl, rfl⟩ := ending_inj hending
  exact ⟨rfl, rfl, List.append_cancel_left h⟩

/-! ### Where a key ends -/

/-- The first mark of a text is no later than any other. -/
lemma exists_append_of_not_mem {q : Point} {a b v w : Points} (ha : q ∉ a)
    (h : a ++ q :: v = b ++ q :: w) : ∃ x, b ++ [q] = a ++ q :: x := by
  induction a generalizing b with
  | nil =>
    cases b with
    | nil => exact ⟨[], rfl⟩
    | cons d b =>
      obtain ⟨rfl, -⟩ := List.cons.inj h
      exact ⟨b ++ [q], rfl⟩
  | cons e a ih =>
    rw [List.mem_cons, not_or] at ha
    obtain ⟨hne, ha⟩ := ha
    cases b with
    | nil => exact absurd (List.cons.inj h).1.symm hne
    | cons d b =>
      obtain ⟨rfl, htail⟩ := List.cons.inj h
      obtain ⟨x, hx⟩ := ih ha htail
      exact ⟨x, by rw [List.cons_append, hx, List.cons_append]⟩

/-- What the longer one of two keys has beyond the shorter one begins with the seam behind it. -/
lemma seam_isPrefix {r : Points} (hr : r ≠ [])
    (h : Text.points (ending m t) ++ behind o fs = r ++ (Text.points (ending n u) ++ behind p gs)) :
    Text.points (seam m t) <+: r ++ [.char '"'] := by
  obtain ⟨e, he, hall⟩ := exists_ending m t
  obtain ⟨e', he', -⟩ := exists_ending n u
  obtain ⟨d, r, rfl⟩ := List.exists_cons_of_ne_nil hr
  rw [he, he'] at h
  obtain rfl : .char '"' = d := (List.cons.inj h).1
  have hrest : Text.points e ++ behind o fs = r ++ .char '"' :: (Text.points e' ++ behind p gs) :=
    (List.cons.inj h).2
  have hquote : .char '"' ∉ Text.points e := by
    rw [Text.char_mem_points]
    exact fun hmem => (hall _ hmem).1 rfl
  -- without a further field no quotation mark follows, so nothing can be longer
  cases fs with
  | nil =>
    have hnone : .char '"' ∉ Text.points e ++ behind o [] := by
      rw [List.mem_append]
      rintro (hmem | hmem)
      · exact hquote hmem
      · cases o <;> exact absurd hmem (by decide)
    rw [hrest] at hnone
    simp at hnone
  | cons f fs =>
    have hbehind : behind o (f :: fs) = Text.points ",\n\t" ++
        .char '"' :: (f.key ++ Text.points (ending f.optional f.type) ++ behind o fs) := by
      simp [behind, fieldLine]
    rw [hbehind, ← List.append_assoc] at hrest
    have hnone : .char '"' ∉ Text.points e ++ Text.points ",\n\t" := by
      rw [List.mem_append]
      rintro (hmem | hmem)
      · exact hquote hmem
      · exact absurd hmem (by decide)
    obtain ⟨x, hx⟩ := exists_append_of_not_mem hnone hrest
    refine ⟨x, ?_⟩
    rw [List.cons_append, hx, seam, he]
    simp

/-- A key without seams has nothing beyond a shorter one that is printed alike. -/
lemma eq_nil_of_seamFree {r : Points} (hk : SeamFree (k ++ r))
    (h : Text.points (ending m t) ++ behind o fs = r ++ (Text.points (ending n u) ++ behind p gs)) :
    r = [] := by
  by_contra hr
  refine hk m t ((seam_isPrefix hr h).isInfix.trans ⟨k, [], ?_⟩)
  rw [List.append_nil, List.append_assoc]

/-- Without seams a key ends where the text says so. -/
lemma eq_of_append_ending (hk : SeamFree k) (hl : SeamFree l)
    (h : k ++ (Text.points (ending m t) ++ behind o fs) =
      l ++ (Text.points (ending n u) ++ behind p gs)) :
    k = l ∧ m = n ∧ t = u ∧ behind o fs = behind p gs := by
  rcases List.append_eq_append_iff.mp h with ⟨r, rfl, hrest⟩ | ⟨r, rfl, hrest⟩
  · obtain rfl := eq_nil_of_seamFree hl hrest
    exact ⟨by simp, ending_append_inj hrest⟩
  · obtain rfl := eq_nil_of_seamFree hk hrest
    exact ⟨by simp, ending_append_inj hrest.symm⟩

/-- Behind the last field nothing is printed as if another followed. -/
lemma behind_cons_ne_behind_nil (f : InterfaceField) (fs : List InterfaceField) (o p : Bool) :
    behind o (f :: fs) ≠ behind p [] := by
  intro h
  have hmark : (behind o (f :: fs))[3]? = some (.char '"') := rfl
  rw [h] at hmark
  cases p <;> exact absurd hmark (by decide)

/-- Without seams in the keys, what is printed behind a field determines the fields that follow. -/
lemma eq_of_behind_eq (hfs : ∀ f ∈ fs, SeamFree f.key) (hgs : ∀ g ∈ gs, SeamFree g.key)
    (h : behind o fs = behind p gs) : fs = gs ∧ o = p := by
  induction fs generalizing gs with
  | nil =>
    cases gs with
    | nil =>
      have hinj : ∀ o p : Bool, behind o [] = behind p [] → o = p := by decide
      exact ⟨rfl, hinj o p h⟩
    | cons g gs => exact absurd h.symm (behind_cons_ne_behind_nil g gs p o)
  | cons f fs ih =>
    cases gs with
    | nil => exact absurd h (behind_cons_ne_behind_nil f fs o p)
    | cons g gs =>
      obtain ⟨hf, hfs⟩ := List.forall_mem_cons.mp hfs
      obtain ⟨hg, hgs⟩ := List.forall_mem_cons.mp hgs
      have hkeys : f.key ++ (Text.points (ending f.optional f.type) ++ behind o fs) =
          g.key ++ (Text.points (ending g.optional g.type) ++ behind p gs) := by
        simpa [behind, fieldLine] using h
      obtain ⟨hkey, hoptional, htype, hbehind⟩ := eq_of_append_ending hf hg hkeys
      obtain ⟨rfl, rfl⟩ := ih hfs hgs hbehind
      have hfields : f = g := by
        cases f
        cases g
        simp only at hkey hoptional htype
        rw [hkey, hoptional, htype]
      exact ⟨by rw [hfields], rfl⟩

/-- An interface with fields is not printed like one without. -/
lemma body_cons_ne_body_nil (f : InterfaceField) (fs : List InterfaceField) (o p : Bool) :
    body o (f :: fs) ≠ body p [] := by
  intro h
  have hmark : (body o (f :: fs))[2]? = some (.char '"') := rfl
  rw [h] at hmark
  cases p <;> exact absurd hmark (by decide)

/-- Fields that are printed alike behind the brace are printed alike behind a field. -/
lemma behind_eq_of_body_eq (h : body o fs = body p gs) : behind o fs = behind p gs := by
  cases fs with
  | nil =>
    cases gs with
    | nil =>
      have hinj : ∀ o p : Bool, body o [] = body p [] → behind o [] = behind p [] := by decide
      exact hinj o p h
    | cons g gs => exact absurd h.symm (body_cons_ne_body_nil g gs p o)
  | cons f fs =>
    cases gs with
    | nil => exact absurd h (body_cons_ne_body_nil f fs o p)
    | cons g gs =>
      have hlines : fieldLine f ++ behind o fs = fieldLine g ++ behind p gs := (List.cons.inj h).2
      rw [behind, behind, List.append_assoc, List.append_assoc, hlines]

/-- Interfaces without seams in their keys that are printed alike under one name are the same. -/
lemma render_inj {i j : Interface} (hname : i.name = j.name) (hi : ∀ f ∈ i.fields, SeamFree f.key)
    (hj : ∀ f ∈ j.fields, SeamFree f.key) :
    i.render = j.render ↔ i.fields = j.fields ∧ i.isMixed = j.isMixed := by
  constructor
  · intro h
    rw [render_eq, render_eq, hname, List.append_cancel_left_eq] at h
    exact eq_of_behind_eq hi hj (behind_eq_of_body_eq h)
  · rintro ⟨hfields, hmixed⟩
    rw [render_eq, render_eq, hname, hfields, hmixed]

/-- A key without line feeds holds no seam. -/
lemma seamFree_of_not_mem (h : .char '\n' ∉ k) : SeamFree k := by
  intro optional type hseam
  have hmem : .char '\n' ∈ Text.points (seam optional type) := by simp [seam]
  have hkey : .char '\n' ∈ k ++ [.char '"'] := hseam.subset hmem
  simp [h] at hkey

/-! ### A field on its own -/

/-- The key of a field with the marks around it, as it is shown. -/
def quotedKey (f : InterfaceField) : Text :=
  '"' :: f.key.shown ++ ['"']

/-- A character that stands for itself in a JSON text. -/
def IsPlain (c : Char) : Prop :=
  32 ≤ c.toNat ∧ c ≠ '"' ∧ c ≠ '\\'

/-- A field is one line exactly if its key is. -/
lemma lines_fieldLine_iff (f : InterfaceField) :
    Text.lines (fieldLine f).shown = [(fieldLine f).shown] ↔
      ∀ c ∈ f.key.shown, isLineBreak c = false := by
  have hline : (fieldLine f).shown = "\t\"" ++ f.key.shown ++ ending f.optional f.type := by
    rw [fieldLine, Points.shown_append, Points.shown_append, Text.shown_points, Text.shown_points]
  have hne : (fieldLine f).shown ≠ [] := by simp [hline]
  have hending : ∀ c ∈ ending f.optional f.type, isLineBreak c = false := by
    have hall : ∀ m : Bool, ∀ t ∈ sampleTypes, (ending m t).all (fun c => !isLineBreak c) = true := by
      decide
    intro c hc
    simpa using List.all_eq_true.mp (hall f.optional f.type (mem_sampleTypes _)) c hc
  constructor
  · intro h c hc
    refine Text.not_isLineBreak_of_mem_lines _ _ (h ▸ List.mem_singleton_self _) c ?_
    rw [hline]
    simp [hc]
  · intro h
    refine Text.lines_of_forall hne fun c hc => ?_
    rw [hline, List.mem_append, List.mem_append] at hc
    rcases hc with (hc | hc) | hc
    · have hlead : (("\t\"" : Text).all fun c => !isLineBreak c) = true := by decide
      simpa using List.all_eq_true.mp hlead c hc
    · exact h c hc
    · exact hending c hc

end

end Ambient.Interface

namespace Ambient.Json

open Interface (IsPlain quotedKey)

variable {body key : Text} {ps : Points}

/-- A text is written by no fewer characters than it has points, and by as many only if each stands for
itself. -/
lemma Written.length_le (h : Written body ps) :
    ps.length ≤ body.length ∧ (body.length ≤ ps.length → ∀ c ∈ body, IsPlain c) := by
  induction h with
  | nil => simp
  | plain hc hquote hslash _ ih =>
    refine ⟨by simpa using ih.1, fun hle => ?_⟩
    exact List.forall_mem_cons.mpr ⟨⟨hc, hquote, hslash⟩, ih.2 (by simpa using hle)⟩
  | escape _ _ ih =>
    simp only [List.length_cons]
    exact ⟨by omega, fun hle => by omega⟩
  | unit _ _ _ ih =>
    simp only [List.length_cons]
    exact ⟨by omega, fun hle => by omega⟩
  | pair _ _ _ _ _ ih =>
    simp only [List.length_cons]
    exact ⟨by omega, fun hle => by omega⟩

/-- A text is written as itself exactly if each of its characters is. -/
lemma written_self_iff : Written key key.points ↔ ∀ c ∈ key, IsPlain c := by
  refine ⟨fun h => h.length_le.2 (Text.length_points key).ge, fun h => ?_⟩
  induction key with
  | nil => exact .nil
  | cons c key ih =>
    obtain ⟨⟨hc, hquote, hslash⟩, hkey⟩ := List.forall_mem_cons.mp h
    exact .plain hc hquote hslash (ih hkey)

/-- A text between quotation marks is read back exactly if each of its characters stands for itself. -/
lemma read_quoted_iff :
    read ('"' :: key ++ ['"']) = .ok (.text key.points) ↔ ∀ c ∈ key, IsPlain c := by
  have hskip : skip ('"' :: (key ++ ['"'])) = '"' :: (key ++ ['"']) :=
    List.dropWhile_cons_of_neg (by decide)
  rw [List.cons_append, read_eq_ok_iff, hskip, ← written_self_iff]
  constructor
  · rintro ⟨-, rest, hgives, hrest⟩
    obtain ⟨body, ps, hbody, hwritten, htext⟩ := gives_text_iff.mp hgives
    obtain rfl := Json.text.inj htext
    -- a separator at the end would be the closing mark
    rcases rest.eq_nil_or_concat' with rfl | ⟨rest, d, rfl⟩
    · obtain rfl : key = body := by simpa using hbody
      exact hwritten
    · have hlast := congrArg List.getLast? hbody
      rw [← List.cons_append, ← List.append_assoc, List.getLast?_concat, List.getLast?_concat] at hlast
      obtain rfl := Option.some.inj hlast
      have hseparator := List.dropWhile_eq_nil_iff.mp hrest '"' (by simp)
      exact absurd hseparator (by decide)
  · intro h
    exact ⟨by simp, [], gives_text_iff.mpr ⟨key, key.points, rfl, h, rfl⟩, rfl⟩

end Ambient.Json

namespace Ambient.Interface

variable {τ : Type} [ToPoints τ]

/-- The interface that a sample and prose say a member has. -/
def inferred (member : Text) (sample : Table (Json τ) τ) (prose : Text) : Interface :=
  (infer member sample prose).value

/-- The fields of an interface have the keys of its sample.  Its text determines them, and whether
their types differ, if no key holds what is printed between two keys; two fields next to each other
are always printed like the one whose key holds it.  A key of characters is read back from its field
exactly if each of them stands for itself, and a field is one line exactly if its key is. -/
theorem render_inferred (member : Text) (o p : Table (Json τ) τ) (prose prose' : Text) :
    (inferred member o prose).fields.map (·.key) = (Table.keys o).map toPoints ∧
      ((∀ k ∈ Table.keys o, SeamFree (toPoints k)) → (∀ k ∈ Table.keys p, SeamFree (toPoints k)) →
        ((inferred member o prose).render = (inferred member p prose').render ↔
          (inferred member o prose).fields = (inferred member p prose').fields ∧
            (inferred member o prose).isMixed = (inferred member p prose').isMixed)) ∧
      (∀ before f g after, (inferred member o prose).fields = before ++ f :: g :: after →
        (inferred member o prose).render =
          ({ inferred member o prose with fields := before ++ joined f g :: after } : Interface).render) ∧
      ∀ f ∈ (inferred member o prose).fields,
        (∀ k : Text, f.key = k.points →
          (Json.read (quotedKey f) = .ok (.text f.key) ↔ ∀ c ∈ k, IsPlain c)) ∧
        (Text.lines (fieldLine f).shown = [(fieldLine f).shown] ↔
          ∀ c ∈ f.key.shown, isLineBreak c = false) := by
  have hkeys : ∀ (o : Table (Json τ) τ) prose, (∀ k ∈ Table.keys o, SeamFree (toPoints k)) →
      ∀ f ∈ (inferred member o prose).fields, SeamFree f.key := by
    intro o prose h f hf
    have hmem : f.key ∈ (Table.keys o).map toPoints := by
      rw [← keys_infer member o prose]
      exact List.mem_map_of_mem hf
    obtain ⟨k, hk, hkey⟩ := List.mem_map.mp hmem
    exact hkey ▸ h k hk
  refine ⟨keys_infer member o prose, fun ho hp => ?_, fun before f g after h => render_joined _ h,
    fun f _ => ⟨fun k hk => ?_, lines_fieldLine_iff f⟩⟩
  · refine render_inj ?_ (hkeys o prose ho) (hkeys p prose' hp)
    rw [inferred, inferred, name_infer, name_infer]
  · rw [quotedKey, hk, Text.shown_points]
    exact Json.read_quoted_iff

/-- A sample with two numbers. -/
def twoNumbers : Table Json :=
  [("a", .number (.whole 1)), ("b", .number (.whole 1))]

/-- A hint makes a difference to the text, and the two fields are printed like one. -/
theorem render_inferred_twoNumbers :
    ((inferred "data" twoNumbers "").render =
        (inferred "data" twoNumbers "The \"b\" key is optional.").render ↔
      (inferred "data" twoNumbers "").fields =
          (inferred "data" twoNumbers "The \"b\" key is optional.").fields ∧
        (inferred "data" twoNumbers "").isMixed =
          (inferred "data" twoNumbers "The \"b\" key is optional.").isMixed) ∧
      (inferred "data" twoNumbers "").fields ≠
        (inferred "data" twoNumbers "The \"b\" key is optional.").fields ∧
      (inferred "data" twoNumbers "").render =
        ({ inferred "data" twoNumbers "" with
          fields := [joined { key := Text.points "a", type := .number }
            { key := Text.points "b", type := .number }] } : Interface).render := by
  have hkeys : ∀ k ∈ Table.keys twoNumbers, SeamFree (toPoints k) := by
    have hplain : ∀ k ∈ Table.keys twoNumbers, .char '\n' ∉ toPoints k := by decide
    exact fun k hk => seamFree_of_not_mem (hplain k hk)
  obtain ⟨-, hinj, hjoined, -⟩ :=
    render_inferred "data" twoNumbers twoNumbers "" "The \"b\" key is optional."
  exact ⟨hinj hkeys hkeys, by decide, hjoined [] _ _ [] (by decide)⟩

/-- A sample with one number, whose key holds what is printed between two keys. -/
def oneNumber : Table Json :=
  [("a\": number,\n\t\"b", .number (.whole 1))]

/-- Two interfaces with different fields are printed alike, and the key of the second one is neither
read back nor on one line. -/
theorem render_eq_oneNumber :
    (inferred "data" oneNumber "").render = (inferred "data" twoNumbers "").render ∧
      (inferred "data" oneNumber "").fields ≠ (inferred "data" twoNumbers "").fields ∧
      ∀ f ∈ (inferred "data" oneNumber "").fields,
        Json.read (quotedKey f) ≠ .ok (.text f.key) ∧
          Text.lines (fieldLine f).shown ≠ [(fieldLine f).shown] := by
  refine ⟨by decide, by decide, ?_⟩
  have hfields : (inferred "data" oneNumber "").fields =
      [{ key := Text.points "a\": number,\n\t\"b", type := .number }] := by decide
  rw [hfields]
  intro f hf
  obtain rfl := List.mem_singleton.mp hf
  constructor
  · rw [quotedKey, Text.shown_points]
    intro hread
    have hplain := Json.read_quoted_iff.mp hread '"' (by decide)
    exact hplain.2.1 rfl
  · rw [Ne, lines_fieldLine_iff, Text.shown_points]
    intro hbreak
    have hfeed := hbreak '\n' (by decide)
    exact absurd hfeed (by decide)

end Ambient.Interface
