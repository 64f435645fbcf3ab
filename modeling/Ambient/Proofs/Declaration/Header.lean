import Mathlib
import Ambient.Declaration.Global
import Ambient.Proofs.Comment
import Ambient.Proofs.Declaration.Interfaces

/-!
# The headers of a declaration

The text of a declaration is a comment, the header of what it declares and perhaps a namespace, with an
empty line in front of it.  Its headers are the lines that begin with `declare`.  A line of a comment
begins with an asterisk behind a blank, and a line of a block with a tab unless it is empty, so neither
brings in a header (`headers_ofLines`, `headers_block`).

Renaming a declaration looks at the text alone: it exchanges the name in the first header of a function
or a variable under the old name (`exists_of_renameFirst?`), and it finds one exactly if a header opens
what can be renamed, with the name of it at a boundary (`isSome_renameFirst?_iff_headers`).
-/

namespace Ambient

namespace Declaration

variable {t u : Text} {ls : List Text}

/-! ### Headers -/

/-- The header of a declaration up to its name, given the word for its kind. -/
def header (word name : Text) : Text :=
  "declare " ++ word ++ ' ' :: name

/-- The lines of a text that begin a declaration. -/
def headers (t : Text) : List Text :=
  (Text.splitAt '\n' t).filter (Text.startsWith "declare ")

/-- A text starts with a piece just if the piece is a prefix of it. -/
lemma startsWith_iff {piece : Text} : Text.startsWith piece t = true ↔ piece <+: t := by
  rw [Text.startsWith, Option.isSome_iff_exists]
  constructor
  · rintro ⟨rest, hrest⟩
    exact ⟨rest, (Text.after?_eq_some_iff.mp hrest).symm⟩
  · rintro ⟨rest, rfl⟩
    exact ⟨rest, Text.after?_eq_some_iff.mpr rfl⟩

lemma header_eq (word name : Text) : header word name = "declare " ++ (word ++ ' ' :: name) :=
  List.append_assoc ..

lemma header_function (name : Text) : header "function" name = "declare function " ++ name := rfl

lemma header_var (name : Text) : header "var" name = "declare var " ++ name := rfl

lemma header_namespace (name : Text) : header "namespace" name = "declare namespace " ++ name := rfl

lemma isPrefix_header (word name : Text) : ("declare " : Text) <+: header word name :=
  ⟨word ++ ' ' :: name, (header_eq word name).symm⟩

/-- Texts with a line feed between them have the headers of both. -/
lemma headers_append_newline (t u : Text) : headers (t ++ '\n' :: u) = headers t ++ headers u := by
  rw [headers, Text.splitAt_append_cons, List.filter_append]
  rfl

/-- A text that begins with a header goes on in the same line up to the first line feed. -/
lemma headers_append (hu : '\n' ∉ u) (hdeclare : ("declare " : Text) <+: u) (t : Text) :
    headers (u ++ t) = (u ++ (Text.splitAt '\n' t).headD []) ::
      (Text.splitAt '\n' t).tail.filter (Text.startsWith "declare ") := by
  have hstart : Text.startsWith "declare " (u ++ (Text.splitAt '\n' t).headD []) = true :=
    startsWith_iff.mpr (hdeclare.trans (List.prefix_append ..))
  rw [headers, Text.splitAt_append hu, List.filter_cons_of_pos hstart]

/-- A line that begins a declaration is its own only header. -/
lemma headers_of_declare (hu : '\n' ∉ u) (hdeclare : ("declare " : Text) <+: u) :
    headers u = [u] := by
  simpa [Text.splitAt] using headers_append hu hdeclare []

/-- A line that begins no declaration has no headers. -/
lemma headers_of_not_declare (hu : '\n' ∉ u) (hdeclare : ¬ ("declare " : Text) <+: u) :
    headers u = [] := by
  have hstart : ¬ Text.startsWith "declare " u = true := fun h => hdeclare (startsWith_iff.mp h)
  rw [headers, Text.splitAt_of_not_mem hu, List.filter_cons_of_neg hstart, List.filter_nil]

/-- Lines that are no headers are none together. -/
lemma headers_unlines (h : ∀ l ∈ ls, '\n' ∉ l ∧ ¬ ("declare " : Text) <+: l) :
    headers (Text.unlines ls) = [] := by
  induction ls with
  | nil => exact headers_of_not_declare List.not_mem_nil (by decide)
  | cons l ls ih =>
    obtain ⟨⟨hl, hno⟩, hls⟩ := List.forall_mem_cons.mp h
    cases ls with
    | nil => exact headers_of_not_declare hl hno
    | cons l' ls =>
      rw [Text.unlines_cons_cons, headers_append_newline, headers_of_not_declare hl hno, ih hls]
      rfl

/-! ### Comments -/

/-- Escaping adds no character but backslashes. -/
lemma mem_escaped {c : Char} (h : c ∈ Comment.escaped t) : c ∈ t ∨ c = '\\' := by
  fun_induction Comment.escaped t with
  | case1 => simp at h
  | case2 t ih =>
    simp only [List.mem_cons] at h ⊢
    tauto
  | case3 d t _ ih =>
    simp only [List.mem_cons] at h ⊢
    tauto

/-- A line of a comment begins with a blank and an asterisk. -/
lemma line_eq (t : Text) : Comment.line t = ' ' :: '*' :: Text.trimEnd (' ' :: Comment.escaped t) :=
  Text.trimEnd_append_cons (w := [' ']) (c := '*') (by decide)

/-- A line of a comment is one line, and it begins with an asterisk behind a blank. -/
lemma line_spec (h : '\n' ∉ t) :
    '\n' ∉ Comment.line t ∧ ¬ ("declare " : Text) <+: Comment.line t := by
  rw [line_eq]
  refine ⟨?_, fun hdeclare => absurd (List.cons_prefix_cons.mp hdeclare).1 (by decide)⟩
  intro hmem
  rw [List.mem_cons, List.mem_cons] at hmem
  rcases hmem with heq | heq | hmem
  · exact absurd heq (by decide)
  · exact absurd heq (by decide)
  · have hline := (Text.trimEnd_isPrefix (' ' :: Comment.escaped t)).subset hmem
    rcases List.mem_cons.mp hline with heq | hescaped
    · exact absurd heq (by decide)
    · rcases mem_escaped hescaped with hmem | heq
      · exact h hmem
      · exact absurd heq (by decide)

/-- A comment of lines has no header in it. -/
lemma headers_ofLines (h : ∀ l ∈ ls, '\n' ∉ l) : headers (Comment.ofLines ls) = [] := by
  by_cases hne : ls = []
  · subst hne
    exact headers_of_not_declare List.not_mem_nil (by decide)
  · have hlines : headers (Text.unlines (ls.map Comment.line)) = [] :=
      headers_unlines (List.forall_mem_map.mpr fun l hl => line_spec (h l hl))
    have hopen : Comment.openPart ls = "/**" ++ '\n' :: Text.unlines (ls.map Comment.line) := rfl
    rw [Comment.ofLines_eq hne, headers_append_newline, hopen, headers_append_newline, hlines,
      headers_of_not_declare (by decide) (by decide), headers_of_not_declare (by decide) (by decide)]
    rfl

/-- The headers of a text behind a comment without any are its own. -/
lemma headers_before {comment : Text} (h : headers comment = []) (t : Text) :
    headers (Comment.before comment t) = headers t := by
  rw [Comment.before]
  split_ifs
  · rfl
  · rw [headers_append_newline, h, List.nil_append]

/-! ### Blocks -/

/-- An indented text has no headers, since no declaration begins behind a tab. -/
lemma headers_indent (t : Text) : headers (Text.indent "\t" t) = [] := by
  rw [Text.indent_eq]
  refine headers_unlines (List.forall_mem_map.mpr fun l hl => ?_)
  have hnewline := Text.newline_not_mem_lines t l hl
  rw [Text.indentLine]
  split_ifs
  · exact ⟨List.not_mem_nil, by decide⟩
  · refine ⟨?_, fun hdeclare => absurd (List.cons_prefix_cons.mp hdeclare).1 (by decide)⟩
    intro hmem
    rcases List.mem_cons.mp hmem with heq | hmem
    · exact absurd heq (by decide)
    · exact hnewline hmem

/-- The one header of a block is the line that opens it. -/
lemma headers_block {opening : Text} (hopening : '\n' ∉ opening)
    (hdeclare : ("declare " : Text) <+: opening) (body : List Text) :
    headers (block opening body) =
      [opening ++ ' ' :: '{' :: if body.isEmpty then ['}'] else []] := by
  by_cases hbody : body = []
  · subst hbody
    have hline : '\n' ∉ opening ++ [' ', '{', '}'] := by
      rw [List.mem_append, not_or]
      exact ⟨hopening, by decide⟩
    exact headers_of_declare hline (hdeclare.trans (List.prefix_append ..))
  · have hline : '\n' ∉ opening ++ [' ', '{'] := by
      rw [List.mem_append, not_or]
      exact ⟨hopening, by decide⟩
    have hblock : block opening body = opening ++ [' ', '{'] ++
        '\n' :: (Text.indent "\t" (Text.joinWith "\n\n" body) ++ '\n' :: ['}']) := by
      rw [block_eq hbody]
      simp
    rw [hblock, headers_append_newline, headers_append_newline, headers_indent,
      headers_of_declare hline (hdeclare.trans (List.prefix_append ..)),
      headers_of_not_declare (by decide) (by decide), if_neg (by simpa using hbody)]
    rfl

/-! ### Renaming -/

/-- The words for what can be declared under another name. -/
def renamableWords : List Text :=
  ["function", "var"]

/-- The words for what can be renamed are single words. -/
lemma space_not_mem_of_renamable : ∀ word ∈ renamableWords, ' ' ∉ word := by
  decide

/-- The header of what can be renamed is one line if the name is. -/
lemma newline_not_mem_header {word name : Text} (hword : word ∈ renamableWords) (h : '\n' ∉ name) :
    '\n' ∉ header word name := by
  have hlead : '\n' ∉ ("declare " : Text) := by decide
  have hbare : ∀ w ∈ renamableWords, '\n' ∉ w := by decide
  intro hmem
  rw [header_eq] at hmem
  rcases List.mem_append.mp hmem with hmem | hmem
  · exact hlead hmem
  rcases List.mem_append.mp hmem with hmem | hmem
  · exact hbare word hword hmem
  rcases List.mem_cons.mp hmem with heq | hmem
  · exact absurd heq (by decide)
  · exact h hmem

variable {old new : Text} {atStart : Bool}

/-- A renaming at the beginning of a text exchanges the name in one header. -/
lemma exists_of_renameHead? (h : renameHead? old new t = some u) :
    ∃ word ∈ renamableWords, ∃ behind, t = header word old ++ behind ∧
      u = header word new ++ behind ∧
        Text.atBoundary (old.getLast?.or (some ' ')) behind = true := by
  have hone : ∀ head : Text, ((Text.after? (head ++ old) t).bind fun rest =>
      if Text.atBoundary (old.getLast?.or (some ' ')) rest then some (head ++ new ++ rest)
      else none) = some u →
      ∃ behind, t = head ++ old ++ behind ∧ u = head ++ new ++ behind ∧
        Text.atBoundary (old.getLast?.or (some ' ')) behind = true := by
    intro head hhead
    obtain ⟨behind, hafter, hif⟩ := Option.bind_eq_some_iff.mp hhead
    split_ifs at hif with hboundary
    obtain rfl := Option.some.inj hif
    exact ⟨behind, Text.after?_eq_some_iff.mp hafter, rfl, hboundary⟩
  rcases Option.or_eq_some_iff.mp h with hfunction | ⟨-, hvar⟩
  · obtain ⟨behind, ht, hu, hboundary⟩ := hone _ hfunction
    exact ⟨"function", List.mem_cons_self, behind, ht, hu, hboundary⟩
  · obtain ⟨behind, ht, hu, hboundary⟩ := hone _ hvar
    exact ⟨"var", List.mem_cons_of_mem _ List.mem_cons_self, behind, ht, hu, hboundary⟩

/-- What stands in front of a line: nothing, or text with a line feed at its end. -/
def EndsLine (before : Text) : Prop :=
  before = [] ∨ ∃ lines, before = lines ++ ['\n']

/-- The text `u` is `t` with the name `new` in the place of `old` in one header of a function or a
variable at the start of a line. -/
structure Renames (old new t u word before behind : Text) : Prop where
  renamable : word ∈ renamableWords
  line : EndsLine before
  boundary : Text.atBoundary (old.getLast?.or (some ' ')) behind = true
  original : t = before ++ header word old ++ behind
  renamed : u = before ++ header word new ++ behind

/-- A renaming exchanges the name in one header at the start of a line. -/
lemma exists_of_renameFirst? (h : renameFirst? old new atStart t = some u) :
    ∃ word before behind, Renames old new t u word before behind ∧
      (before = [] → atStart = true) := by
  induction t generalizing u atStart with
  | nil => cases h
  | cons c t ih =>
    rw [renameFirst?] at h
    split at h
    · next renamed hrenamed =>
      obtain rfl := Option.some.inj h
      split_ifs at hrenamed with hstart
      obtain ⟨word, hword, behind, ht, hu, hboundary⟩ := exists_of_renameHead? hrenamed
      exact ⟨word, [], behind, ⟨hword, Or.inl rfl, hboundary, ht, hu⟩, fun _ => hstart⟩
    · obtain ⟨v, hv, rfl⟩ := Option.map_eq_some_iff.mp h
      obtain ⟨word, before, behind, ⟨hword, hline, hboundary, rfl, rfl⟩, hstart⟩ := ih hv
      refine ⟨word, c :: before, behind, ⟨hword, ?_, hboundary, rfl, rfl⟩, fun hnil => ?_⟩
      · rcases hline with rfl | ⟨lines, rfl⟩
        · have hc : c = '\n' := of_decide_eq_true (hstart rfl)
          exact Or.inr ⟨[], by rw [hc]; rfl⟩
        · exact Or.inr ⟨c :: lines, rfl⟩
      · cases hnil

/-- A line that begins with the header of a function or a variable whose name ends where `old` does. -/
def Opens (old l : Text) : Prop :=
  ∃ word ∈ renamableWords, ∃ rest, l = header word old ++ rest ∧
    Text.atBoundary (old.getLast?.or (some ' ')) rest = true

/-- A boundary in front of a text is one in front of its first line. -/
lemma atBoundary_takeWhile (before : Option Char) (t : Text) :
    Text.atBoundary before (t.takeWhile (· ≠ '\n')) = Text.atBoundary before t := by
  cases t with
  | nil => rfl
  | cons c t =>
    by_cases hc : c = '\n'
    · subst hc
      have hword : isWord '\n' = false := by decide
      simp [Text.atBoundary, hword]
    · rw [List.takeWhile_cons_of_pos (by simpa using hc)]
      rfl

/-- A text can be renamed at its beginning just if its first line opens with a header for the name.
-/
lemma isSome_renameHead?_iff (hold : '\n' ∉ old) :
    (renameHead? old new t).isSome = true ↔ Opens old (t.takeWhile (· ≠ '\n')) := by
  have hline : ∀ word ∈ renamableWords, ∀ behind,
      (header word old ++ behind).takeWhile (· ≠ '\n') =
        header word old ++ behind.takeWhile (· ≠ '\n') := by
    intro word hword behind
    rw [← Text.headD_splitAt, Text.splitAt_append (newline_not_mem_header hword hold),
      List.headD_cons, Text.headD_splitAt]
  constructor
  · intro h
    obtain ⟨u, hu⟩ := Option.isSome_iff_exists.mp h
    obtain ⟨word, hword, behind, rfl, -, hboundary⟩ := exists_of_renameHead? hu
    rw [← atBoundary_takeWhile] at hboundary
    exact ⟨word, hword, _, hline word hword behind, hboundary⟩
  · rintro ⟨word, hword, rest, heq, hboundary⟩
    obtain ⟨behind, rfl⟩ : ∃ behind, t = header word old ++ behind := by
      refine ⟨rest ++ t.dropWhile (· ≠ '\n'), ?_⟩
      rw [← List.append_assoc, ← heq, List.takeWhile_append_dropWhile]
    rw [hline word hword, List.append_cancel_left_eq] at heq
    rw [← heq, atBoundary_takeWhile] at hboundary
    have hrenamed : ((Text.after? (header word old) (header word old ++ behind)).bind fun rest =>
        if Text.atBoundary (old.getLast?.or (some ' ')) rest = true then
          some (header word new ++ rest) else none) = some (header word new ++ behind) := by
      rw [Text.after?_eq_some_iff.mpr rfl, Option.bind_some, if_pos hboundary]
    rw [renameHead?, Option.isSome_or, Bool.or_eq_true]
    rcases List.mem_pair.mp hword with rfl | rfl
    · exact Or.inl (Option.isSome_of_eq_some hrenamed)
    · exact Or.inr (Option.isSome_of_eq_some hrenamed)

/-- A text is renamed if one of the lines that it starts opens what can be renamed. -/
lemma isSome_renameFirst?_iff (hold : '\n' ∉ old) :
    (renameFirst? old new atStart t).isSome = true ↔
      ∃ l ∈ if atStart then Text.splitAt '\n' t else (Text.splitAt '\n' t).tail, Opens old l := by
  induction t generalizing atStart with
  | nil =>
    have hempty : ¬ Opens old [] := by
      rintro ⟨word, -, rest, hnil, -⟩
      rw [header_eq] at hnil
      cases hnil
    cases atStart with
    | false => simp [renameFirst?, Text.splitAt]
    | true => simpa [renameFirst?, Text.splitAt] using hempty
  | cons c t ih =>
    -- a line feed starts the next line, any other character stays in this one
    have htail : (Text.splitAt '\n' (c :: t)).tail =
        if (c = '\n' : Bool) then Text.splitAt '\n' t else (Text.splitAt '\n' t).tail := by
      by_cases hc : c = '\n'
      · simp [Text.splitAt, hc]
      · simp [Text.splitAt_cons_of_ne hc, hc]
    have hrest : (renameFirst? old new (c = '\n') t).isSome = true ↔
        ∃ l ∈ (Text.splitAt '\n' (c :: t)).tail, Opens old l := by
      rw [htail]
      exact ih
    cases atStart with
    | false => simpa [renameFirst?] using hrest
    | true =>
      obtain ⟨l, ls, hls⟩ := List.exists_cons_of_ne_nil (Text.splitAt_ne_nil '\n' (c :: t))
      have hhead : (renameHead? old new (c :: t)).isSome = true ↔ Opens old l := by
        rw [isSome_renameHead?_iff hold, ← Text.headD_splitAt, hls]
        rfl
      rw [hls, List.tail_cons] at hrest
      rw [if_pos rfl, hls, List.exists_mem_cons_iff, ← hrest, ← hhead, renameFirst?, if_pos rfl]
      cases renameHead? old new (c :: t) <;> simp

/-- A text can be renamed just if one of its headers opens with the name. -/
lemma isSome_renameFirst?_iff_headers (hold : '\n' ∉ old) :
    (renameFirst? old new true t).isSome = true ↔ ∃ l ∈ headers t, Opens old l := by
  rw [isSome_renameFirst?_iff hold, if_pos rfl]
  refine exists_congr fun l => ⟨fun ⟨hl, hopens⟩ => ⟨?_, hopens⟩, fun ⟨hl, hopens⟩ => ⟨?_, hopens⟩⟩
  · obtain ⟨word, -, rest, rfl, -⟩ := hopens
    exact List.mem_filter.mpr
      ⟨hl, startsWith_iff.mpr ((isPrefix_header word old).trans (List.prefix_append _ rest))⟩
  · exact (List.mem_filter.mp hl).1

/-- One header has another name after renaming, and all others stay. -/
lemma Renames.headers {word before behind : Text} (h : Renames old new t u word before behind)
    (hold : '\n' ∉ old) (hnew : '\n' ∉ new) :
    ∃ front line back, headers t = front ++ (header word old ++ line) :: back ∧
      headers u = front ++ (header word new ++ line) :: back := by
  obtain ⟨hword, hline, -, rfl, rfl⟩ := h
  have hbehind : ∃ line back, ∀ name : Text, '\n' ∉ name →
      headers (header word name ++ behind) = (header word name ++ line) :: back :=
    ⟨_, _, fun name hname =>
      headers_append (newline_not_mem_header hword hname) (isPrefix_header word name) behind⟩
  obtain ⟨line, back, hbehind⟩ := hbehind
  rcases hline with rfl | ⟨lines, rfl⟩
  · exact ⟨[], line, back, hbehind old hold, hbehind new hnew⟩
  · have hfront : ∀ name : Text, '\n' ∉ name →
        headers (lines ++ ['\n'] ++ header word name ++ behind) =
          headers lines ++ (header word name ++ line) :: back := by
      intro name hname
      have hsplit : lines ++ ['\n'] ++ header word name ++ behind =
          lines ++ '\n' :: (header word name ++ behind) := by
        simp
      rw [hsplit, headers_append_newline, hbehind name hname]
    exact ⟨headers lines, line, back, hfront old hold, hfront new hnew⟩

end Declaration

end Ambient
