import Mathlib
import Ambient.Proofs.TypeExpr.Extension
import Ambient.Proofs.TypeExpr.Printable

/-!
# Two notations for one expression

An array, a promise, a map and a function can be written in the notation of documents and in that of
declarations, and any type can be written in parentheses.  A text inside such a notation means what it
means alone (`parseStrict_inside`).

There are two seams to look after.  The tokens of the inner text stay as they are if the text around it
runs into none of them (`Spells.append`), where a type never ends with an equals sign, which would make
an arrow with an angle bracket behind it.  And the inner type is read as it is alone because each
notation closes it by a token that stops a type (`reads_append_of_stops`).
-/

namespace Ambient

namespace Token

variable {us ts : List Token} {t : Token} {v w : Text}

/-! ### Texts behind each other -/

/-- A name that ends in front of both of two texts ends in front of them together. -/
lemma EndsName.append (hv : EndsName v) (hw : EndsName w) : EndsName (v ++ w) := by
  match v with
  | [] => exact hw
  | [c] =>
    refine ⟨hv.1, fun d ds heq => ?_⟩
    obtain ⟨-, rfl⟩ := List.cons.inj heq
    have hrest := hw.1 d rfl
    cases hstart : isNameStart d with
    | false => rfl
    | true =>
      rw [isNameRest_of_isNameStart hstart] at hrest
      exact absurd hrest (by decide)
  | c :: d :: v =>
    refine ⟨hv.1, fun e es heq => ?_⟩
    obtain ⟨rfl, htail⟩ := List.cons.inj heq
    obtain ⟨rfl, -⟩ := List.cons.inj htail
    exact hv.2 d v rfl

/-- The last of some tokens is no equals sign. -/
def LastNotEquals (us : List Token) : Prop :=
  ∀ t ∈ us.getLast?, t.text ≠ "="

lemma lastNotEquals_cons (ht : t.text ≠ "=") (hts : LastNotEquals ts) :
    LastNotEquals (t :: ts) := by
  intro x hx
  rw [List.getLast?_cons] at hx
  obtain rfl := Option.mem_some.mp hx
  cases hlast : ts.getLast? with
  | none => exact ht
  | some x => exact hts x hlast

lemma lastNotEquals_append_cons (h : LastNotEquals (t :: ts)) : LastNotEquals (us ++ t :: ts) := by
  unfold LastNotEquals
  rw [List.getLast?_append_cons]
  exact h

lemma lastNotEquals_singleton (ht : t.text ≠ "=") : LastNotEquals [t] :=
  lastNotEquals_cons ht (by simp [LastNotEquals])

lemma eq_nil_of_spells_nil (h : Spells us []) : us = [] := by
  generalize hw : ([] : Text) = w at h
  cases h with
  | nil => rfl
  | blank => exact absurd hw (by simp)
  | token hlex =>
    obtain ⟨⟨c, v, htext, -⟩, -⟩ := hlex.isBlank_eq_false
    rw [htext] at hw
    exact absurd hw (by simp)

/-- A text that does not end with an equals sign adds the tokens that it spells. -/
lemma Spells.writes (h : Spells us v) (hlast : LastNotEquals us) : Writes us v := by
  intro ts w hw hts
  induction h with
  | nil => exact hts
  | blank hc _ ih => exact .blank hc (ih hlast)
  | @token t us v hlex hends hrest ih =>
    have hends' : Ends t (v ++ w) := by
      refine ⟨fun hkind => (hends.1 hkind).append hw, fun htext => ?_⟩
      cases v with
      | cons c v => exact hends.2 htext
      | nil =>
        obtain rfl := eq_nil_of_spells_nil hrest
        exact absurd htext (hlast t rfl)
    have hlast' : LastNotEquals us := by
      intro x hx
      refine hlast x ?_
      rw [List.getLast?_cons, hx]
      rfl
    rw [List.append_assoc]
    exact .token hlex hends' (ih hlast')

/-- A text that starts with an angle bracket spells one first. -/
lemma startsWith_of_spells (h : Spells us v) (hv : v.head? = some '>') :
    TypeExpr.startsWith ">" us = true := by
  cases h with
  | nil => simp at hv
  | blank hc =>
    obtain rfl : _ = '>' := by simpa using hv
    exact absurd hc (by decide)
  | token hlex =>
    refine (TypeExpr.startsWith_cons _).mpr ?_
    cases hlex with
    | arrow hc => rcases hc with rfl | rfl <;> simp at hv
    | text hc => rcases hc with rfl | rfl <;> simp at hv
    | name hc =>
      obtain rfl : _ = '>' := by simpa using hv
      exact absurd hc (by decide)
    | mark =>
      obtain rfl : _ = '>' := by simpa using hv
      rfl

end Token

namespace TypeExpr

open Token (mark word fatArrow thinArrow IsName Spells EndsName Writes LastNotEquals
  lastNotEquals_cons lastNotEquals_append_cons lastNotEquals_singleton)

variable {u v : Text} {us vs ts : List Token} {e f : TypeExpr} {c : Token}

/-- A type does not end with an equals sign. -/
lemma Derives.lastNotEquals {ph : Phrase} (h : Derives ph us) (hus : ∀ t ∈ us, t.Proper)
    (hph : ph = .type ∨ ph = .suffixed ∨ ph = .primary) : LastNotEquals us := by
  have hequals : (['='] : Text) ∈ Token.signs := by decide
  have hproper : ∀ t : Token, t.Proper → MayName t → t.text ≠ "=" :=
    fun t ht hname heq => ht hname (heq ▸ hequals)
  induction h with
  | single _ ih => exact ih hus (Or.inr (Or.inl rfl))
  | plain _ ih => exact ih hus (Or.inr (Or.inr rfl))
  | choice _ hbar _ _ ih =>
    exact lastNotEquals_append_cons (lastNotEquals_cons (by rw [hbar]; decide)
      (ih (fun t ht => hus t (by simp [ht])) (Or.inl rfl)))
  | suffix _ ha hb =>
    exact lastNotEquals_append_cons
      (lastNotEquals_cons (by rw [ha]; decide) (lastNotEquals_singleton (by rw [hb]; decide)))
  | functionTo _ _ _ _ hc ha _ _ ih | arrow _ _ hc ha _ _ ih =>
    exact lastNotEquals_append_cons (lastNotEquals_cons (by rw [hc]; decide)
      (lastNotEquals_cons (by rw [ha]; decide)
        (ih (fun t ht => hus t (by simp [ht])) (Or.inl rfl))))
  | function _ _ _ _ hc | group _ _ hc | bracketed _ _ hc | indexed _ _ _ _ _ _ hc
  | fields _ _ hc | assigned _ _ _ _ _ hc | applied _ _ _ hc =>
    exact lastNotEquals_append_cons (lastNotEquals_singleton (by rw [hc]; decide))
  | reference ho hkind =>
    exact lastNotEquals_cons (by rw [ho]; decide)
      (lastNotEquals_singleton (hproper _ (hus _ (by simp)) (Or.inl hkind)))
  | unknown ht => exact lastNotEquals_singleton (by rw [ht]; decide)
  | literal hkind => exact lastNotEquals_singleton (hproper _ (hus _ (by simp)) (Or.inr hkind))
  | name hkind => exact lastNotEquals_singleton (hproper _ (hus _ (by simp)) (Or.inl hkind))
  | _ => simp at hph

/-! ### A type and the tokens behind it -/

/-- The text `u` spells the tokens `us`, which read as the type `e`. -/
structure Denotes (u : Text) (us : List Token) (e : TypeExpr) : Prop where
  spells : Spells us u
  reads : Reads (parseType us) e []

/-- A text with tokens that is accepted denotes its type by them. -/
lemma exists_denotes (htokens : Token.tokens u ≠ .ok []) (h : parseStrict u = .ok e) :
    ∃ us, Denotes u us e := by
  cases hus : Token.tokens u with
  | error fault => simp [parseStrict, hus] at h
  | ok us =>
    have hne : us ≠ [] := by
      rintro rfl
      exact htokens hus
    rw [parseStrict, hus] at h
    exact ⟨us, Token.tokens_eq_ok_iff.mp hus, (ofTokens_eq_ok hne).mp h⟩

namespace Denotes

/-- What a text denotes is what the strict reader answers. -/
lemma parseStrict_eq (h : Denotes u us e) : parseStrict u = .ok e := by
  have hne : us ≠ [] := by
    rintro rfl
    exact absurd h.reads.length_lt (Nat.not_lt_zero _)
  rw [parseStrict, Token.tokens_eq_ok_iff.mpr h.spells]
  exact (ofTokens_eq_ok hne).mpr h.reads

lemma proper (h : Denotes u us e) : ∀ t ∈ us, t.Proper :=
  fun t ht => (h.spells.lexical t ht).proper

/-- The tokens of a text that denotes a type are derived as one. -/
lemma derives (h : Denotes u us e) : Derives .type us := by
  obtain ⟨ws, heq, hws⟩ := spans_of_reads_parseType h.reads
  rw [List.append_nil] at heq
  rwa [heq]

/-- The tokens of a text that denotes a type may stand where a type begins. -/
lemma opens (h : Denotes u us e) : Opens us :=
  h.derives.opens h.proper

/-- In front of tokens that stop it the type is read. -/
lemma reads_append (h : Denotes u us e) (hts : Stops ts) : Reads (parseType (us ++ ts)) e ts :=
  reads_append_of_stops h.proper h.reads hts

/-- In front of a text that goes on with no name the text adds its tokens. -/
lemma writes (h : Denotes u us e) : Writes us u :=
  h.spells.writes (h.derives.lastNotEquals h.proper (Or.inl rfl))

/-- A type alone between parentheses is one parameter without a name. -/
lemma reads_parseParams (h : Denotes u us e) (hc : c.text = ")") :
    Reads (parseParams ")" (us ++ c :: ts)) [⟨none, e, false⟩] ts := by
  have hstops : Stops (c :: ts) := stops_cons (by rw [hc]; decide)
  have hparam := (reads_parseParam_plain (h.opens.paramHead?_append hstops)).mpr
    ⟨e, h.reads_append hstops, rfl⟩
  have hopen : startsWith ")" (us ++ c :: ts) = false := by
    obtain ⟨t, w, rfl, ht, -⟩ := h.opens
    exact startsWith_of_text fun htext => ht (by rw [htext]; decide)
  exact TypeExpr.reads_parseParams.mpr (Or.inr ⟨hopen, reads_parseSomeParams.mpr
    ⟨_, _, hparam, Or.inl ⟨rfl, reads_expect.mpr ⟨c, hc, rfl⟩⟩⟩⟩)

/-- A type between parentheses with no arrow behind them. -/
lemma reads_group (h : Denotes u us e) (hno : startsWith "=>" ts = false) :
    Reads (parsePrimary (mark '(' :: (us ++ mark ')' :: ts))) e ts :=
  (reads_parsePrimary_parenthesis rfl).mpr (Or.inr
    ⟨h.derives.parseArrow?_eq_none h.proper rfl hno, _,
      h.reads_append (stops_cons (by decide)), reads_expect.mpr ⟨mark ')', rfl, rfl⟩⟩)

end Denotes

/-! ### The notations -/

/-- A primary type with nothing behind it is a type. -/
lemma reads_parseType_of_primary (h : Reads (parsePrimary ts) e []) : Reads (parseType ts) e [] :=
  reads_parseType.mpr ⟨[e], reads_parseMembers_last h stops_nil, rfl⟩

lemma endsName_mark {d : Char} (hd : d ∈ marks) (hdot : d ≠ '.') : EndsName (d :: v) :=
  Token.endsName_cons (Token.isNameRest_of_mem_marks hd) hdot

namespace Denotes

/-- A type with a mark behind it that closes what it stands in. -/
lemma spells_closed (h : Denotes u us e) {d : Char} (hd : d ∈ marks) (hdot : d ≠ '.')
    (hts : Spells (mark d :: ts) (d :: v)) : Spells (us ++ mark d :: ts) (u ++ d :: v) :=
  h.writes _ _ (endsName_mark hd hdot) hts

/-- An equals sign in front of a type is no arrow. -/
lemma spells_equals (h : Denotes u us e) (hts : Spells (us ++ ts) v) :
    Spells (mark '=' :: (us ++ ts)) ('=' :: v) := by
  have hhead : v.head? ≠ some '>' := by
    intro hv
    obtain ⟨t, w, rfl, ht, -⟩ := h.opens
    have htext : t.text = ">" := (startsWith_cons t).mp (Token.startsWith_of_spells hts hv)
    exact ht (by rw [htext]; decide)
  exact .token (.mark (by decide)) ⟨by simp [mark], fun _ => hhead⟩ hts

/-- A type in parentheses. -/
lemma group (h : Denotes u us e) :
    Denotes ("(" ++ u ++ ")") (mark '(' :: us ++ [mark ')']) e where
  spells := (writes_between (by decide) (by decide) (by decide) (by decide) (by decide)
    h.writes).spells
  reads := reads_parseType_of_primary (h.reads_group rfl)

/-- An array in the notation of documents. -/
lemma bracketed (h : Denotes u us e) :
    Denotes ("[" ++ u ++ "]") (mark '[' :: us ++ [mark ']']) (.array e) where
  spells := (writes_between (by decide) (by decide) (by decide) (by decide) (by decide)
    h.writes).spells
  reads := reads_parseType_of_primary ((reads_parsePrimary_bracket rfl).mpr
    ⟨e, _, h.reads_append (stops_cons (by decide)), reads_expect.mpr ⟨mark ']', rfl, rfl⟩, rfl⟩)

/-- An array with a suffix behind a type in parentheses. -/
lemma suffixed (h : Denotes u us e) :
    Denotes ("(" ++ u ++ ")[]") (mark '(' :: (us ++ [mark ')', mark '[', mark ']'])) (.array e) where
  spells := by
    have hsuffix : Spells [mark '[', mark ']'] ['[', ']'] :=
      (Spells.nil.mark (by decide) (by decide)).mark (by decide) (by decide)
    have hclosed := h.spells_closed (by decide) (by decide)
      (hsuffix.mark (c := ')') (by decide) (by decide))
    simpa using hclosed.mark (c := '(') (by decide) (by decide)
  reads := by
    have hgroup : Reads (parsePrimary (mark '(' :: (us ++ [mark ')', mark '[', mark ']']))) e
        [mark '[', mark ']'] := h.reads_group (startsWith_of_text (by decide))
    have hsuffix := @arraySuffixes_of_both [] e (mark '[') (mark ']') rfl rfl
    have hnone : ¬ StartsWithBoth "[" "]" [] := not_startsWithBoth rfl
    obtain ⟨hvalue, hrest⟩ := @arraySuffixes_of_not_both [] (.array e) hnone
    have hpostfix := reads_parsePostfix.mpr
      ⟨e, _, hgroup, hsuffix.1.trans hvalue, hsuffix.2.trans hrest⟩
    exact reads_parseType.mpr ⟨_, (tail_nil stops_nil).reads_parseMembers hpostfix, rfl⟩

/-- A promise in the notation of documents. -/
lemma assigned (h : Denotes u us e) :
    Denotes ("Promise[:t=" ++ u ++ "]")
      (word "Promise" :: mark '[' :: mark ':' :: word "t" :: mark '=' :: (us ++ [mark ']']))
      (.promise (some e)) where
  spells := by
    have hname : IsName "t" := Token.IsIdentifier.isName (by decide)
    have hclosed := h.spells_closed (by decide) (by decide)
      (Spells.nil.mark (c := ']') (by decide) (by decide))
    have hvariable := (h.spells_equals hclosed).word hname (endsName_mark (by decide) (by decide))
    have hbracket := (hvariable.mark (c := ':') (by decide) (by decide)).mark (c := '[') (by decide)
      (by decide)
    simpa using hbracket.word isName_promise (endsName_mark (by decide) (by decide))
  reads := by
    have hopeners : (word "Promise").text ∉ openers := not_mem_openers isName_promise
    refine reads_parseType_of_primary ((reads_parsePrimary_name rfl hopeners
      (Or.inr (startsWith_of_text (by decide)))).mpr ((reads_parseNamed_variable rfl rfl).mpr ?_))
    exact ⟨_, e, _, reads_variableHead.mpr ⟨word "t", mark '=', rfl, rfl⟩,
      h.reads_append (stops_cons (by decide)), reads_expect.mpr ⟨mark ']', rfl, rfl⟩, rfl⟩

/-- A promise in the notation of declarations. -/
lemma applied (h : Denotes u us e) :
    Denotes ("Promise<" ++ u ++ ">") (word "Promise" :: mark '<' :: (us ++ [mark '>']))
      (.promise (some e)) where
  spells := by
    have hclosed := h.spells_closed (by decide) (by decide)
      (Spells.nil.mark (c := '>') (by decide) (by decide))
    have hangle := hclosed.mark (c := '<') (by decide) (by decide)
    simpa using hangle.word isName_promise (endsName_mark (by decide) (by decide))
  reads := by
    have hopeners : (word "Promise").text ∉ openers := not_mem_openers isName_promise
    have hargs : Reads (parseArguments (us ++ [mark '>'])) [e] [mark '>'] :=
      reads_parseArguments.mpr ⟨e, _, h.reads_append (stops_cons (by decide)),
        Or.inl ⟨startsWith_of_text (by decide), rfl, rfl⟩⟩
    exact reads_parseType_of_primary ((reads_parsePrimary_name rfl hopeners
      (Or.inr (startsWith_of_text (by decide)))).mpr ((reads_parseNamed_applied rfl).mpr
        ⟨[e], _, hargs, reads_expect.mpr ⟨mark '>', rfl, rfl⟩, rfl⟩))

/-- The value of a map up to the end of the map, with the colon in front of it. -/
lemma spells_value (h : Denotes u us e) :
    Spells (mark ':' :: (us ++ [mark '}'])) (':' :: ' ' :: (u ++ ['}'])) :=
  .mark (by decide) (by decide) (.blank (by decide)
    (h.spells_closed (by decide) (by decide) (.mark (by decide) (by decide) .nil)))

/-- A bare map, which is written like an object with the one field `string`. -/
lemma bareMap (h : Denotes u us e) :
    Denotes ('{' :: "string: " ++ u ++ ['}'])
      (mark '{' :: word "string" :: mark ':' :: (us ++ [mark '}'])) (.map e false) where
  spells := by
    have hfield := h.spells_value.word isName_string (endsName_mark (by decide) (by decide))
    simpa using hfield.mark (c := '{') (by decide) (by decide)
  reads := by
    have hstops : Stops [mark '}'] := stops_cons (by decide)
    have hhead := @paramHead?_colon (us ++ [mark '}']) (word "string") (mark ':') (Or.inl rfl) rfl
    have hparam := (reads_parseParam_named hhead).mpr ⟨e, h.reads_append hstops, rfl⟩
    have hfields := TypeExpr.reads_parseParams.mpr (Or.inr ⟨startsWith_of_text (by decide),
      reads_parseSomeParams.mpr ⟨_, _, hparam, Or.inl
        ⟨rfl, reads_expect.mpr ⟨mark '}', rfl, rfl⟩⟩⟩⟩)
    exact reads_parseType_of_primary ((reads_parsePrimary_brace rfl).mpr
      ((reads_parseBraces_fields (startsWith_of_text (by decide))).mpr ⟨_, hfields, rfl⟩))

/-- A map with an index signature. -/
lemma indexedMap (h : Denotes u us e) :
    Denotes ('{' :: "[key: string]: " ++ u ++ ['}'])
      (mark '{' :: mark '[' :: word "key" :: mark ':' :: word "string" :: mark ']' :: mark ':' ::
        (us ++ [mark '}'])) (.map e true) where
  spells := by
    have hbracket := h.spells_value.mark (c := ']') (by decide) (by decide)
    have hstring := hbracket.word isName_string (endsName_mark (by decide) (by decide))
    have hcolon := (Spells.blank (c := ' ') (by decide) hstring).mark (c := ':') (by decide)
      (by decide)
    have hkey := hcolon.word isName_key (endsName_mark (by decide) (by decide))
    have hopen := hkey.mark (c := '[') (by decide) (by decide)
    simpa using hopen.mark (c := '{') (by decide) (by decide)
  reads := by
    have hhead : Reads (indexHead (word "key" :: mark ':' :: word "string" :: mark ']' :: mark ':' ::
        (us ++ [mark '}']))) () (us ++ [mark '}']) :=
      reads_indexHead.mpr ⟨_, _, _, _, _, rfl, rfl, rfl, rfl⟩
    exact reads_parseType_of_primary ((reads_parsePrimary_brace rfl).mpr
      ((reads_parseBraces_indexed rfl).mpr ⟨_, e, _, hhead, h.reads_append (stops_cons (by decide)),
        reads_expect.mpr ⟨mark '}', rfl, rfl⟩, rfl⟩))

/-- A function of one parameter in the notation of documents. -/
lemma functionTo (h : Denotes u us e) (hv : Denotes v vs f) :
    Denotes ("fn(" ++ v ++ ") -> " ++ u)
      (word "fn" :: mark '(' :: (vs ++ mark ')' :: thinArrow :: us))
      (.function [⟨none, f, false⟩] (some e) false) where
  spells := by
    have hreturn := Spells.blank (c := ' ') (by decide)
      (Spells.thinArrow (.blank (c := ' ') (by decide) h.spells))
    have hparams := hv.spells_closed (by decide) (by decide)
      (hreturn.mark (c := ')') (by decide) (by decide))
    have hopen := hparams.mark (c := '(') (by decide) (by decide)
    simpa using hopen.word isName_fn (endsName_mark (by decide) (by decide))
  reads := reads_parseType_of_primary ((reads_parsePrimary_fn rfl rfl rfl).mpr
    (reads_parseFunction.mpr ⟨_, _, hv.reads_parseParams rfl,
      Or.inr ⟨_, _, reads_expect.mpr ⟨thinArrow, rfl, rfl⟩, h.reads, rfl⟩⟩))

/-- A function of one parameter in the notation of declarations. -/
lemma arrow (h : Denotes u us e) (hv : Denotes v vs f) :
    Denotes ("(" ++ v ++ ") => " ++ u) (mark '(' :: (vs ++ mark ')' :: fatArrow :: us))
      (.function [⟨none, f, false⟩] (some e) true) where
  spells := by
    have hreturn := Spells.blank (c := ' ') (by decide)
      (Spells.fatArrow (.blank (c := ' ') (by decide) h.spells))
    have hparams := hv.spells_closed (by decide) (by decide)
      (hreturn.mark (c := ')') (by decide) (by decide))
    simpa using hparams.mark (c := '(') (by decide) (by decide)
  reads := reads_parseType_of_primary ((reads_parsePrimary_parenthesis rfl).mpr (Or.inl
    (readsArrow.mpr ⟨_, _, _, _, hv.reads_parseParams rfl,
      reads_expect.mpr ⟨fatArrow, rfl, rfl⟩, h.reads, rfl⟩)))

end Denotes

/-- Two texts that are types mean in each notation what they mean alone: parentheses change nothing,
the two notations of an array and of a promise give one expression, and those of a map and of a
function differ in their mark only. -/
theorem parseStrict_inside (hu : Token.tokens u ≠ .ok []) (he : parseStrict u = .ok e)
    (hv : Token.tokens v ≠ .ok []) (hf : parseStrict v = .ok f) :
    parseStrict ("(" ++ u ++ ")") = .ok e ∧
      parseStrict ("[" ++ u ++ "]") = .ok (.array e) ∧
      parseStrict ("(" ++ u ++ ")[]") = .ok (.array e) ∧
      parseStrict ("Promise[:t=" ++ u ++ "]") = .ok (.promise (some e)) ∧
      parseStrict ("Promise<" ++ u ++ ">") = .ok (.promise (some e)) ∧
      parseStrict ('{' :: "string: " ++ u ++ ['}']) = .ok (.map e false) ∧
      parseStrict ('{' :: "[key: string]: " ++ u ++ ['}']) = .ok (.map e true) ∧
      parseStrict ("fn(" ++ v ++ ") -> " ++ u) =
        .ok (.function [⟨none, f, false⟩] (some e) false) ∧
      parseStrict ("(" ++ v ++ ") => " ++ u) =
        .ok (.function [⟨none, f, false⟩] (some e) true) := by
  obtain ⟨us, hus⟩ := exists_denotes hu he
  obtain ⟨vs, hvs⟩ := exists_denotes hv hf
  exact ⟨hus.group.parseStrict_eq, hus.bracketed.parseStrict_eq, hus.suffixed.parseStrict_eq,
    hus.assigned.parseStrict_eq, hus.applied.parseStrict_eq, hus.bareMap.parseStrict_eq,
    hus.indexedMap.parseStrict_eq, (hus.functionTo hvs).parseStrict_eq,
    (hus.arrow hvs).parseStrict_eq⟩

/-- A function that returns a choice ends where the notation around it closes. -/
theorem parseStrict_inside_function :
    parseStrict "[fn() -> a | b]" =
        .ok (.array (.function [] (some (.union [.atom "a", .atom "b"])) false)) ∧
      parseStrict "(fn() -> a | b) => fn() -> a | b" =
        .ok (.function [⟨none, .function [] (some (.union [.atom "a", .atom "b"])) false, false⟩]
          (some (.function [] (some (.union [.atom "a", .atom "b"])) false)) true) := by
  have ha : IsName ['a'] := Token.IsIdentifier.isName (by decide)
  have hb : IsName ['b'] := Token.IsIdentifier.isName (by decide)
  have hprintable :
      Everywhere Printable (.function [] (some (.union [.atom "a", .atom "b"])) false) := by
    simp [Printable, ParamsPrintable, isUnion, TakesMembers, ha, hb]
  have htokens : Token.tokens "fn() -> a | b" ≠ .ok [] := by decide +kernel
  have hread : parseStrict "fn() -> a | b" = _ := parseStrict_render_of_printable hprintable
  obtain ⟨-, hbracketed, -, -, -, -, -, -, harrow⟩ :=
    parseStrict_inside htokens hread htokens hread
  exact ⟨hbracketed, harrow⟩

end TypeExpr

end Ambient
