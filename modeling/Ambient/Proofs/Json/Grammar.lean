import Mathlib
import Ambient.Json.Reader

/-!
# What the reader accepts

`Gives` says that a reading function reads a value and leaves a rest.  Each function has one lemma that
says from which parts its value is put together (`gives_object_iff`, `gives_members_iff` and so on), and
no other proof about reading opens the functions.

A text between quotation marks is read up to the closing mark, and what follows the mark makes no
difference: `Written` relates what stands between the marks to the points that it stands for, and
mentions nothing else (`gives_textBody_iff`).
-/

namespace Ambient

namespace Json

variable {α : Type} {c d : Char} {p : Point} {ps : Points} {cs ds t rest rest' u r r' : Text}
  {v : Json Points} {n opened : ℕ}

/-- A reading function reads a value and leaves a rest. -/
def Gives (f : (cs : Text) → Reading α cs) (cs : Text) (a : α) (rest : Text) : Prop :=
  ∃ h, f cs = .ok (a, ⟨rest, h⟩)

/-! ### Marks -/

/-- Whether what is written goes on with the second unit of a pair. -/
def GoesOnLow (body : Text) : Prop :=
  ∃ a b c d more n, body = '\\' :: 'u' :: a :: b :: c :: d :: more ∧
    Text.hexValue? [a, b, c, d] = some n ∧ isLowUnit n = true

/-- What is written between quotation marks, and the points that it stands for. -/
inductive Written : Text → Points → Prop
  | nil : Written [] []
  | plain {c : Char} {body : Text} {ps : Points} : 32 ≤ c.toNat → c ≠ '"' → c ≠ '\\' →
      Written body ps → Written (c :: body) (.char c :: ps)
  | escape {c d : Char} {body : Text} {ps : Points} : escaped? d = some c → Written body ps →
      Written ('\\' :: d :: body) (.char c :: ps)
  | unit {a b c d : Char} {n : ℕ} {body : Text} {ps : Points} : Text.hexValue? [a, b, c, d] = some n →
      (isHighUnit n = true → ¬ GoesOnLow body) → Written body ps →
      Written ('\\' :: 'u' :: a :: b :: c :: d :: body) (.ofCode n :: ps)
  | pair {a b c d a' b' c' d' : Char} {high low : ℕ} {body : Text} {ps : Points} :
      Text.hexValue? [a, b, c, d] = some high → isHighUnit high = true →
      Text.hexValue? [a', b', c', d'] = some low → isLowUnit low = true → Written body ps →
      Written ('\\' :: 'u' :: a :: b :: c :: d :: '\\' :: 'u' :: a' :: b' :: c' :: d' :: body)
        (.char (pairChar high low) :: ps)

/-- A unit is four digits, with something behind them. -/
lemma unit?_eq_some_iff :
    unit? cs = some (n, rest) ↔
      ∃ a b c d, cs = a :: b :: c :: d :: rest ∧ Text.hexValue? [a, b, c, d] = some n ∧ rest ≠ [] := by
  unfold unit?
  split
  · next a b c d e behind =>
    rw [Option.map_eq_some_iff]
    constructor
    · rintro ⟨m, hm, heq⟩
      obtain ⟨rfl, rfl⟩ := Prod.mk.inj heq
      exact ⟨a, b, c, d, rfl, hm, List.cons_ne_nil e behind⟩
    · rintro ⟨a', b', c', d', heq, hn, -⟩
      cases heq
      exact ⟨n, hn, rfl⟩
  · next hshort =>
    refine ⟨fun h => (nomatch h), ?_⟩
    rintro ⟨a, b, c, d, rfl, -, hne⟩
    obtain ⟨e, behind, rfl⟩ := List.exists_cons_of_ne_nil hne
    exact absurd rfl (hshort a b c d e behind)

/-- A second escape of four digits is read as one. -/
lemma secondUnit?_eq {a b c d : Char} (h : Text.hexValue? [a, b, c, d] = some n) (hne : rest ≠ []) :
    secondUnit? ('\\' :: 'u' :: a :: b :: c :: d :: rest) = some (.ok (n, rest)) := by
  have hunit : unit? (a :: b :: c :: d :: rest) = some (n, rest) :=
    unit?_eq_some_iff.mpr ⟨a, b, c, d, rfl, h, hne⟩
  have hlength : ¬ (a :: b :: c :: d :: rest).length < 5 := by
    have hpos := List.length_pos_of_ne_nil hne
    simp only [List.length_cons]
    omega
  rw [secondUnit?, if_neg hlength, hunit]

/-- A second unit is written like a first one. -/
lemma exists_of_secondUnit? (h : secondUnit? cs = some (.ok (n, rest))) :
    ∃ a b c d, cs = '\\' :: 'u' :: a :: b :: c :: d :: rest ∧
      Text.hexValue? [a, b, c, d] = some n ∧ rest ≠ [] := by
  unfold secondUnit? at h
  split at h
  · split_ifs at h
    split at h
    · next found hunit =>
      cases h
      obtain ⟨a, b, c, d, rfl, hn, hne⟩ := unit?_eq_some_iff.mp hunit
      exact ⟨a, b, c, d, rfl, hn, hne⟩
    · cases h
  · cases h

/-- What has been read is read with the rest that is left. -/
lemma exists_ok_eq_iff {a b : α} {hu : u.length < cs.length} :
    (∃ h, (.ok (b, ⟨u, hu⟩) : Reading α cs) = .ok (a, ⟨rest, h⟩)) ↔ u = rest ∧ a = b := by
  constructor
  · rintro ⟨h, heq⟩
    cases heq
    exact ⟨rfl, rfl⟩
  · rintro ⟨rfl, rfl⟩
    exact ⟨hu, rfl⟩

/-- An escape of four digits is a pair with the escape behind it, or stands for itself. -/
lemma gives_unitEscape?_iff :
    Gives unitEscape? cs p rest ↔ ∃ high after, unit? cs = some (high, after) ∧
      ((isHighUnit high = true ∧ ∃ low, secondUnit? after = some (.ok (low, rest)) ∧
          isLowUnit low = true ∧ p = .char (pairChar high low)) ∨
        ((isHighUnit high = true → secondUnit? after = none ∨
            ∃ low behind, secondUnit? after = some (.ok (low, behind)) ∧ isLowUnit low = false) ∧
          after = rest ∧ p = .ofCode high)) := by
  unfold Gives
  fun_cases unitEscape? cs with
  | case1 hnone => simp [hnone]
  | case2 high after hunit hlength hhigh stop hsecond => simp [hunit, hhigh, hsecond]
  | case3 high after hunit hlength hhigh low behind hsecond hlength' hlow =>
    rw [exists_ok_eq_iff]
    simp [hunit, hhigh, hsecond, hlow]
  | case4 high after hunit hlength hhigh low behind hsecond hlength' hlow =>
    rw [exists_ok_eq_iff]
    simp [hunit, hsecond, hlow]
  | case5 high after hunit hlength hhigh hnone =>
    rw [exists_ok_eq_iff]
    simp [hunit, hnone]
  | case6 high after hunit hlength hhigh =>
    rw [exists_ok_eq_iff]
    simp [hunit, hhigh]

/-- Something is left of a text until its closing mark has been read. -/
lemma append_mark_ne_nil (body rest : Text) : body ++ '"' :: rest ≠ [] :=
  List.append_ne_nil_of_right_ne_nil body (List.cons_ne_nil _ rest)

/-- An escape of four digits in front of what is written is written as well. -/
lemma Written.of_unitEscape? (hwritten : Written u ps)
    (h : Gives unitEscape? ds p (u ++ '"' :: rest)) :
    ∃ body, '\\' :: 'u' :: ds = body ++ '"' :: rest ∧ Written body (p :: ps) := by
  obtain ⟨high, after, hunit, hpair | hsingle⟩ := gives_unitEscape?_iff.mp h
  · obtain ⟨hhigh, low, hsecond, hlow, rfl⟩ := hpair
    obtain ⟨a, b, c, d, rfl, hn, -⟩ := unit?_eq_some_iff.mp hunit
    obtain ⟨a', b', c', d', rfl, hn', -⟩ := exists_of_secondUnit? hsecond
    exact ⟨_, rfl, .pair hn hhigh hn' hlow hwritten⟩
  · obtain ⟨halone, rfl, rfl⟩ := hsingle
    obtain ⟨a, b, c, d, rfl, hn, -⟩ := unit?_eq_some_iff.mp hunit
    refine ⟨_, rfl, .unit hn (fun hhigh => ?_) hwritten⟩
    -- a low unit behind a high one would have been read with it
    rintro ⟨a', b', c', d', more, low, rfl, hn', hlow⟩
    have hsecond := secondUnit?_eq hn' (append_mark_ne_nil more rest)
    rcases halone hhigh with hnone | ⟨low', behind, hsecond', hlow'⟩
    · exact absurd (hnone.symm.trans hsecond) (by simp)
    · obtain ⟨rfl, -⟩ := Prod.mk.inj (Except.ok.inj (Option.some.inj (hsecond'.symm.trans hsecond)))
      rw [hlow'] at hlow
      cases hlow

/-- What is written stands in front of the closing mark. -/
lemma Written.of_gives (h : Gives (textBody opened) cs ps rest) :
    ∃ body, cs = body ++ '"' :: rest ∧ Written body ps := by
  unfold Gives at h
  fun_induction textBody opened cs generalizing ps rest with
  | case2 behind =>
    obtain ⟨rfl, rfl⟩ := exists_ok_eq_iff.mp h
    exact ⟨[], rfl, .nil⟩
  | case6 ds p after hafter hescape qs behind hbehind hbody ih =>
    obtain ⟨rfl, rfl⟩ := exists_ok_eq_iff.mp h
    obtain ⟨body, rfl, hwritten⟩ := ih ⟨_, hbody⟩
    exact hwritten.of_unitEscape? ⟨_, hescape⟩
  | case9 d ds hd c hescape qs behind hbehind hbody ih =>
    obtain ⟨rfl, rfl⟩ := exists_ok_eq_iff.mp h
    obtain ⟨body, rfl, hwritten⟩ := ih ⟨_, hbody⟩
    exact ⟨_, rfl, .escape hescape hwritten⟩
  | case12 c ds hmark hend hunit hescape hplain qs behind hbehind hbody ih =>
    obtain ⟨rfl, rfl⟩ := exists_ok_eq_iff.mp h
    obtain ⟨body, rfl, hwritten⟩ := ih ⟨_, hbody⟩
    refine ⟨c :: body, rfl, .plain (not_lt.mp hplain) hmark (fun hc => ?_) hwritten⟩
    -- a backslash would be read as an escape, since something follows it
    obtain ⟨e, more, heq⟩ := List.exists_cons_of_ne_nil (append_mark_ne_nil body behind)
    exact hescape e more hc heq
  | _ =>
    obtain ⟨hlength, heq⟩ := h
    cases heq

/-- Where no second unit is written none is read. -/
lemma Written.secondUnit?_eq (h : Written u ps) (hlow : ¬ GoesOnLow u) (rest : Text) :
    secondUnit? (u ++ '"' :: rest) = none ∨
      ∃ low behind, secondUnit? (u ++ '"' :: rest) = some (.ok (low, behind)) ∧
        isLowUnit low = false := by
  have hnone : ∀ {cs}, (∀ ds, cs ≠ '\\' :: 'u' :: ds) → secondUnit? cs = none := by
    intro cs hcs
    unfold secondUnit?
    split
    · next ds => exact absurd rfl (hcs ds)
    · rfl
  have hunit : ∀ {a b c d n body}, Text.hexValue? [a, b, c, d] = some n →
      u = '\\' :: 'u' :: a :: b :: c :: d :: body →
      ∃ low behind, secondUnit? (u ++ '"' :: rest) = some (.ok (low, behind)) ∧
        isLowUnit low = false := by
    rintro a b c d n body hn rfl
    refine ⟨n, _, Json.secondUnit?_eq hn (append_mark_ne_nil body rest), ?_⟩
    rw [← Bool.not_eq_true]
    exact fun hyes => hlow ⟨a, b, c, d, body, n, rfl, hn, hyes⟩
  cases h with
  | nil => exact Or.inl (hnone (by simp))
  | plain _ _ hescape => exact Or.inl (hnone fun ds heq => hescape (List.cons.inj heq).1)
  | escape hd =>
    refine Or.inl (hnone fun ds heq => ?_)
    obtain rfl := (List.cons.inj (List.cons.inj heq).2).1
    cases hd
  | unit hn => exact Or.inr (hunit hn rfl)
  | pair hn => exact Or.inr (hunit hn rfl)

/-- What is written is read, whatever follows the closing mark. -/
lemma Written.gives (h : Written u ps) (opened : ℕ) (rest : Text) :
    Gives (textBody opened) (u ++ '"' :: rest) ps rest := by
  induction h with
  | nil =>
    rw [Gives, List.nil_append, textBody]
    exact ⟨by simp, rfl⟩
  | @plain c body ps hcontrol hmark hescape _ ih =>
    obtain ⟨hlength, hbody⟩ := ih
    rw [Gives, List.cons_append, textBody.eq_6 _ _ _ hmark (fun hc => absurd hc hescape)
      (fun _ hc => absurd hc hescape) (fun _ _ hc => absurd hc hescape), if_neg (not_lt.mpr hcontrol),
      hbody]
    exact ⟨_, rfl⟩
  | @escape c d body ps hd _ ih =>
    obtain ⟨hlength, hbody⟩ := ih
    have hunit : d ≠ 'u' := by
      rintro rfl
      cases hd
    rw [Gives, List.cons_append, List.cons_append, textBody.eq_5 _ _ _ hunit, hd]
    dsimp only
    rw [hbody]
    exact ⟨_, rfl⟩
  | @unit a b c d n body ps hn hlow hwritten ih =>
    obtain ⟨hlength, hbody⟩ := ih
    have hunit : unit? (a :: b :: c :: d :: (body ++ '"' :: rest)) = some (n, body ++ '"' :: rest) :=
      unit?_eq_some_iff.mpr ⟨a, b, c, d, rfl, hn, append_mark_ne_nil body rest⟩
    obtain ⟨hshorter, hescape⟩ := gives_unitEscape?_iff.mpr ⟨n, _, hunit, Or.inr
      ⟨fun hhigh => hwritten.secondUnit?_eq (hlow hhigh) rest, rfl, rfl⟩⟩
    simp only [Gives, List.cons_append]
    rw [textBody, hescape]
    dsimp only
    rw [hbody]
    exact ⟨by simp only [List.length_cons]; omega, rfl⟩
  | @pair a b c d a' b' c' d' high low body ps hn hhigh hn' hlow _ ih =>
    obtain ⟨hlength, hbody⟩ := ih
    have hsecond := Json.secondUnit?_eq hn' (append_mark_ne_nil body rest)
    have hunit := unit?_eq_some_iff.mpr ⟨a, b, c, d, rfl, hn, List.cons_ne_nil '\\'
      ('u' :: a' :: b' :: c' :: d' :: (body ++ '"' :: rest))⟩
    obtain ⟨hshorter, hescape⟩ :=
      gives_unitEscape?_iff.mpr ⟨high, _, hunit, Or.inl ⟨hhigh, low, hsecond, hlow, rfl⟩⟩
    simp only [Gives, List.cons_append]
    rw [textBody, hescape]
    dsimp only
    rw [hbody]
    exact ⟨by simp only [List.length_cons]; omega, rfl⟩

/-- A text is read up to its closing mark. -/
lemma gives_textBody_iff :
    Gives (textBody opened) cs ps rest ↔ ∃ body, cs = body ++ '"' :: rest ∧ Written body ps := by
  refine ⟨Written.of_gives, ?_⟩
  rintro ⟨body, rfl, hwritten⟩
  exact hwritten.gives opened rest

/-! ### Values -/

/-- A text is read just if it is written up to a closing mark. -/
lemma gives_text_iff :
    Gives value ('"' :: ds) v rest ↔
      ∃ body ps, ds = body ++ '"' :: rest ∧ Written body ps ∧ v = .text ps := by
  have hbody : Gives value ('"' :: ds) v rest ↔
      ∃ ps, v = .text ps ∧ Gives (textBody (ds.length + 1)) ds ps rest := by
    unfold Gives
    rw [value]
    constructor
    · rintro ⟨h, heq⟩
      split at heq
      · cases heq
      · next ps behind hlength hbody =>
        cases heq
        exact ⟨ps, rfl, hlength, hbody⟩
    · rintro ⟨ps, rfl, hlength, hbody⟩
      rw [hbody]
      exact ⟨_, rfl⟩
  simp only [hbody, gives_textBody_iff]
  constructor
  · rintro ⟨ps, rfl, body, rfl, hwritten⟩
    exact ⟨body, ps, rfl, hwritten, rfl⟩
  · rintro ⟨body, ps, rfl, hwritten, rfl⟩
    exact ⟨ps, rfl, body, rfl, hwritten⟩

section

variable {f : (cs : Text) → Reading α cs} {close : Char} {empty : Json Points} {wrap : α → Json Points}

end

/-- A whole text is read if it holds one value and nothing else but separators. -/
lemma read_eq_ok_iff :
    read t = .ok v ↔ t.head? ≠ some '\uFEFF' ∧ ∃ rest, Gives value (skip t) v rest ∧ skip rest = [] := by
  have hmap : ∀ {x : Except Stop (Json Points)} {f : Stop → Fault}, x.mapError f = .ok v ↔ x = .ok v := by
    intro x f
    cases x <;> simp [Except.mapError]
  unfold read
  dsimp only
  rw [hmap]
  split
  · simp
  · next hmark =>
    have hhead : t.head? ≠ some '\uFEFF' := by
      intro hhead
      obtain ⟨u, rfl⟩ := List.head?_eq_some_iff.mp hhead
      exact hmark u rfl
    simp only [hhead, ne_eq, not_false_eq_true, true_and]
    split
    · next stop hstop => simp [Gives, hstop]
    · next w behind hlength hvalue =>
      constructor
      · intro heq
        split_ifs at heq with hend
        obtain rfl := Except.ok.inj heq
        exact ⟨behind, ⟨hlength, hvalue⟩, by simpa using hend⟩
      · rintro ⟨rest, ⟨hlength', hvalue'⟩, hend⟩
        cases hvalue.symm.trans hvalue'
        rw [hend]
        rfl

end Json

end Ambient
