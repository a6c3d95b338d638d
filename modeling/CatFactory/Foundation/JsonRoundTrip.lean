import CatFactory.Foundation.Json

/-!
# Reading back what was written

`JSON.parse` gives back every value whose objects name each property once.  The
scan is followed through string literals and words, then the reading through the
tokens of a value.
-/

namespace CatFactory
namespace Foundation
namespace Json

variable {u : Nat} {num : Type}

/-!
## Scanning a string literal
-/

theorem tokensFrom_cons {scan s : Scan} {rest : List Nat} (h : scanUnit scan u = some ([], s)) :
    tokensFrom scan (u :: rest) = tokensFrom s rest := by
  cases scan <;> simp only [tokensFrom, h, List.nil_append] <;> exact Option.map_id'

theorem hexValue_hexDigit {d : Nat} (h : d < 16) : hexValue (hexDigit d) = some d := by
  have hall : forall d : Fin 16, hexValue (hexDigit d) = some d.val := by decide
  exact hall ⟨d, h⟩

theorem tokensFrom_unicode (h : u < 0x10000) (read rest : List Nat) :
    tokensFrom (.text read) (unicodeEscape u ++ rest) = tokensFrom (.text (u :: read)) rest := by
  have hdigit : forall {left value d : Nat}, d < 16 -> 1 < left ->
      scanUnit (.unicode read left value) (hexDigit d) =
        some ([], .unicode read (left - 1) (value * 16 + d)) := by
    intro left value d hd hleft
    rw [scanUnit, hexValue_hexDigit hd]
    simp only [Option.map_some, Nat.not_le.mpr hleft, if_false]
  have hlast : forall {value d : Nat}, d < 16 ->
      scanUnit (.unicode read 1 value) (hexDigit d) = some ([], .text ((value * 16 + d) :: read)) := by
    intro value d hd
    rw [scanUnit, hexValue_hexDigit hd]
    rfl
  have hvalue : (((0 * 16 + u / 0x1000) * 16 + u / 0x100 % 16) * 16 + u / 0x10 % 16) * 16 + u % 16 =
      u := by
    omega
  have hmod : forall n, n % 16 < 16 := fun n => Nat.mod_lt n (by decide)
  have hhigh : u / 0x1000 < 16 := Nat.div_lt_of_lt_mul h
  show tokensFrom (.text read) (escape :: unitOf 'u' :: hexDigit (u / 0x1000) ::
    hexDigit (u / 0x100 % 16) :: hexDigit (u / 0x10 % 16) :: hexDigit (u % 16) :: rest) = _
  rw [tokensFrom_cons (s := .escaped read) rfl,
    tokensFrom_cons (s := .unicode read 4 0) rfl, tokensFrom_cons (hdigit hhigh (by decide)),
    tokensFrom_cons (hdigit (hmod _) (by decide)), tokensFrom_cons (hdigit (hmod _) (by decide)),
    tokensFrom_cons (hlast (hmod _)), hvalue]

/-- Every short escape is read back as the unit it was written for. -/
theorem unescape_shortEscape {u letter : Nat} (h : shortEscapes.lookup u = some letter) :
    letter ≠ unitOf 'u' ∧ unescape letter = some u := by
  have hall : forall e, e ∈ shortEscapes ->
      e.2 ≠ unitOf 'u' ∧ unescape e.2 = some e.1 := by decide
  exact hall (u, letter) (List.lookup_eq_some_iff.mp h |> fun ⟨_, _, heq, _⟩ => by simp [heq])

theorem tokensFrom_quoteUnit (u : Nat) (read rest : List Nat) :
    tokensFrom (.text read) (quoteUnit u ++ rest) = tokensFrom (.text (u :: read)) rest := by
  rw [quoteUnit]
  cases hshort : shortEscapes.lookup u with
  | some letter =>
      have hletter := unescape_shortEscape hshort
      show tokensFrom (.text read) (escape :: letter :: rest) = _
      rw [tokensFrom_cons (s := .escaped read) rfl, tokensFrom_cons]
      rw [scanUnit, if_neg hletter.1, hletter.2]
      rfl
  | none =>
      simp only
      split
      · next hescaped =>
          apply tokensFrom_unicode
          simp only [isHighSurrogate, isLowSurrogate, Bool.or_eq_true, Bool.and_eq_true,
            decide_eq_true_eq] at hescaped
          omega
      · next hplain =>
          have hquote : u ≠ quote := by
            rintro rfl
            cases hshort
          have hslash : u ≠ escape := by
            rintro rfl
            cases hshort
          simp only [Bool.or_eq_true, decide_eq_true_eq, not_or] at hplain
          apply tokensFrom_cons
          rw [scanUnit, if_neg hquote, if_neg hslash, if_neg hplain.1.1]

theorem tokensFrom_lowSurrogate (h : isLowSurrogate u = true ∨ isHighSurrogate u = true)
    (read rest : List Nat) :
    tokensFrom (.text read) (u :: rest) = tokensFrom (.text (u :: read)) rest := by
  have hlarge : 0x20 ≤ u ∧ u ≠ quote ∧ u ≠ escape := by
    simp only [isLowSurrogate, isHighSurrogate, Bool.and_eq_true, decide_eq_true_eq] at h
    simp only [quote, escape]
    omega
  apply tokensFrom_cons
  rw [scanUnit, if_neg hlarge.2.1, if_neg hlarge.2.2, if_neg (Nat.not_lt.mpr hlarge.1)]

theorem tokensFrom_quoteFrom {paired : Bool} {text : List Nat}
    (hpaired : paired = true -> text.head?.any isLowSurrogate = true) (read rest : List Nat) :
    tokensFrom (.text read) (quoteFrom paired text ++ rest) =
      tokensFrom (.text (text.reverse ++ read)) rest := by
  induction text generalizing paired read with
  | nil => cases paired <;> rfl
  | cons u text ih =>
      rw [List.reverse_cons, List.append_assoc, List.singleton_append]
      cases paired with
      | true =>
          rw [quoteFrom, List.cons_append, tokensFrom_lowSurrogate (Or.inl (hpaired rfl))]
          apply ih
          intro hfalse
          cases hfalse
      | false =>
          rw [quoteFrom]
          split
          · next hpair =>
              rw [Bool.and_eq_true] at hpair
              rw [List.cons_append, tokensFrom_lowSurrogate (Or.inr hpair.1)]
              exact ih (fun _ => hpair.2) _
          · rw [List.append_assoc, tokensFrom_quoteUnit]
            apply ih
            intro hfalse
            cases hfalse

/-- A string literal is one token. -/
theorem tokensFrom_quoted (text rest : List Nat) :
    tokensFrom .between (quoted text ++ rest) =
      (tokensFrom .between rest).map (.text text :: ·) := by
  show tokensFrom .between (quote :: (quoteFrom false text ++ [quote] ++ rest)) = _
  rw [tokensFrom_cons (s := .text []) rfl, List.append_assoc,
    tokensFrom_quoteFrom (fun hfalse => by cases hfalse), List.append_nil]
  show (tokensFrom .between rest).map ([.text text.reverse.reverse] ++ ·) = _
  rw [List.reverse_reverse]
  rfl

/-!
## Scanning a word
-/

/-- A word before this text ends where the text begins. -/
def EndsWord (rest : List Nat) : Prop :=
  rest.head?.any isLexemeUnit = false

theorem endsWord_cons (h : isLexemeUnit u = false) (rest : List Nat) :
    EndsWord (u :: rest) :=
  h

theorem beginToken_lexeme (h : isLexemeUnit u = true) :
    beginToken u = some ([], .word [u]) := by
  have hblank : isBlankUnit u = false := by
    apply Bool.eq_false_iff.mpr
    intro hblank
    simp only [isBlankUnit, List.mem_cons, List.not_mem_nil, or_false, decide_eq_true_eq] at hblank
    rcases hblank with rfl | rfl | rfl | rfl <;> exact absurd h (by decide)
  have hmark : isMark u = false := by
    apply Bool.eq_false_iff.mpr
    intro hmark
    simp only [isMark, List.mem_cons, List.not_mem_nil, or_false, decide_eq_true_eq] at hmark
    rcases hmark with rfl | rfl | rfl | rfl | rfl | rfl <;> exact absurd h (by decide)
  have hquote : u ≠ quote := by
    rintro rfl
    exact absurd h (by decide)
  rw [beginToken, hblank, hmark, if_neg Bool.false_ne_true, if_neg Bool.false_ne_true,
    if_neg hquote, h, if_pos rfl]

theorem tokensFrom_wordRest {word rest : List Nat} (hword : forall u, u ∈ word -> isLexemeUnit u = true)
    (hrest : EndsWord rest) (read : List Nat) :
    tokensFrom (.word read) (word ++ rest) =
      (tokensFrom .between rest).map (.word (read.reverse ++ word) :: ·) := by
  induction word generalizing read with
  | nil =>
      rw [List.nil_append, List.append_nil]
      cases rest with
      | nil => rfl
      | cons u rest =>
          have hu : isLexemeUnit u = false := hrest
          simp only [tokensFrom, scanUnit, hu, Bool.false_eq_true, if_false]
          cases beginToken u with
          | none => rfl
          | some begun =>
              simp only [Option.map_some, Option.map_map]
              rfl
  | cons u word ih =>
      have hu := hword u List.mem_cons_self
      have hstep : scanUnit (.word read) u = some ([], .word (u :: read)) := by
        rw [scanUnit, if_pos hu]
      rw [List.cons_append, tokensFrom_cons hstep,
        ih fun v hv => hword v (List.mem_cons_of_mem u hv), List.reverse_cons, List.append_assoc]
      rfl

theorem tokensFrom_word {word rest : List Nat} (hne : word ≠ [])
    (hword : forall u, u ∈ word -> isLexemeUnit u = true) (hrest : EndsWord rest) :
    tokensFrom .between (word ++ rest) = (tokensFrom .between rest).map (.word word :: ·) := by
  cases word with
  | nil => exact absurd rfl hne
  | cons u word =>
      have hbegin : scanUnit .between u = some ([], .word [u]) :=
        beginToken_lexeme (hword u List.mem_cons_self)
      rw [List.cons_append, tokensFrom_cons hbegin,
        tokensFrom_wordRest (fun v hv => hword v (List.mem_cons_of_mem u hv)) hrest]
      rfl

theorem reads_number : NUMBER.Reads fun u => isLexemeUnit u = true := by
  have hdigit : forall u, isDigitUnit u = true -> isLexemeUnit u = true := by
    intro u hu
    rw [isLexemeUnit, hu]
    rfl
  have hlit : forall {units : List Nat}, (units.all isLexemeUnit) = true ->
      (Regex.lit units).Reads fun u => isLexemeUnit u = true := by
    intro units hunits
    induction units with
    | nil => trivial
    | cons c units ih =>
        rw [List.all_cons, Bool.and_eq_true] at hunits
        refine ⟨fun u hu => ?_, ih hunits.2⟩
        rw [of_decide_eq_true hu]
        exact hunits.1
  have honeOf : forall {units : List Nat}, (units.all isLexemeUnit) = true ->
      (Regex.oneOf units).Reads fun u => isLexemeUnit u = true := by
    intro units hunits u hu
    exact List.all_eq_true.mp hunits u (of_decide_eq_true hu)
  refine ⟨⟨hlit (by decide +kernel), trivial⟩, ⟨hlit (by decide +kernel), ?_, hdigit⟩,
    ⟨⟨hlit (by decide +kernel), hdigit⟩, trivial⟩, ⟨⟨honeOf (by decide +kernel),
      ⟨honeOf (by decide +kernel), trivial⟩, hdigit, trivial⟩, trivial⟩, trivial⟩
  intro u hu
  exact hdigit u (Bool.and_eq_true _ _ ▸ hu).1

theorem isLexemeUnit_of_number {word : List Nat} (h : isNumberLexeme word = true) :
    word ≠ [] ∧ forall u, u ∈ word -> isLexemeUnit u = true := by
  rcases List.any_eq_true.mp h with ⟨m, hm, hrest⟩
  have htext := run_text hm
  rw [List.isEmpty_iff.mp hrest, List.append_nil] at htext
  rw [htext]
  exact ⟨consumes_of_eats (by decide +kernel) _ _ m hm, run_reads reads_number hm⟩

/-!
## The tokens of a value
-/

mutual

def tokens (numbers : NumberFormat num) : Json num -> List Token
  | .null => [.word (stringUnits "null")]
  | .bool true => [.word (stringUnits "true")]
  | .bool false => [.word (stringUnits "false")]
  | .number n => [.word (numbers.format n)]
  | .string text => [.text text]
  | .array items => .mark leftBracket :: (itemTokens numbers items ++ [.mark rightBracket])
  | .object fields => .mark leftBrace :: (fieldTokens numbers fields ++ [.mark rightBrace])

def itemTokens (numbers : NumberFormat num) : List (Json num) -> List Token
  | [] => []
  | item :: rest =>
      tokens numbers item ++ if rest.isEmpty then [] else .mark comma :: itemTokens numbers rest

def fieldTokens (numbers : NumberFormat num) : List (List Nat × Json num) -> List Token
  | [] => []
  | (key, value) :: rest =>
      .text key :: .mark colon :: (tokens numbers value ++
        if rest.isEmpty then [] else .mark comma :: fieldTokens numbers rest)

end

theorem tokensFrom_mark (h : beginToken u = some ([.mark u], .between)) (rest : List Nat) :
    tokensFrom .between (u :: rest) = (tokensFrom .between rest).map (.mark u :: ·) := by
  simp only [tokensFrom, scanUnit, h]
  rfl

theorem tokensFrom_literal {word : String} (hne : stringUnits word ≠ [])
    (hword : (stringUnits word).all isLexemeUnit = true) {rest : List Nat} (hrest : EndsWord rest) :
    tokensFrom .between (stringUnits word ++ rest) =
      (tokensFrom .between rest).map ([.word (stringUnits word)] ++ ·) :=
  tokensFrom_word hne (List.all_eq_true.mp hword) hrest

mutual

theorem tokensFrom_stringify (numbers : NumberFormat num) (x : Json num) (rest : List Nat)
    (hrest : EndsWord rest) :
    tokensFrom .between (stringify numbers x ++ rest) =
      (tokensFrom .between rest).map (tokens numbers x ++ ·) := by
  cases x with
  | null => exact tokensFrom_literal (by decide +kernel) (by decide +kernel) hrest
  | bool value =>
      cases value with
      | true => exact tokensFrom_literal (by decide +kernel) (by decide +kernel) hrest
      | false => exact tokensFrom_literal (by decide +kernel) (by decide +kernel) hrest
  | number n =>
      have hlexeme := isLexemeUnit_of_number (numbers.lexeme n)
      exact tokensFrom_word hlexeme.1 hlexeme.2 hrest
  | string text => exact tokensFrom_quoted text rest
  | array items =>
      rw [stringify, List.cons_append, List.append_assoc, tokensFrom_mark (by decide),
        List.singleton_append, tokensFrom_items numbers items _ (endsWord_cons (u := rightBracket) (by decide) rest)]
      show ((tokensFrom .between (rightBracket :: rest)).map _).map _ = _
      rw [tokensFrom_mark (by decide), Option.map_map, Option.map_map, tokens]
      congr 1
      funext ts
      simp only [Function.comp_apply, List.cons_append, List.append_assoc, List.nil_append]
  | object fields =>
      rw [stringify, List.cons_append, List.append_assoc, tokensFrom_mark (by decide),
        List.singleton_append, tokensFrom_fields numbers fields _ (endsWord_cons (u := rightBrace) (by decide) rest)]
      show ((tokensFrom .between (rightBrace :: rest)).map _).map _ = _
      rw [tokensFrom_mark (by decide), Option.map_map, Option.map_map, tokens]
      congr 1
      funext ts
      simp only [Function.comp_apply, List.cons_append, List.append_assoc, List.nil_append]

theorem tokensFrom_items (numbers : NumberFormat num) (items : List (Json num)) (rest : List Nat)
    (hrest : EndsWord rest) :
    tokensFrom .between (stringifyItems numbers items ++ rest) =
      (tokensFrom .between rest).map (itemTokens numbers items ++ ·) := by
  cases items with
  | nil => exact Option.map_id'.symm
  | cons item items =>
      rw [stringifyItems, itemTokens, List.append_assoc]
      cases items with
      | nil =>
          show tokensFrom .between (stringify numbers item ++ rest) = _
          rw [tokensFrom_stringify numbers item rest hrest, List.isEmpty_nil, if_pos rfl,
            List.append_nil]
      | cons next items =>
          show tokensFrom .between (stringify numbers item ++
            comma :: (stringifyItems numbers (next :: items) ++ rest)) = _
          rw [tokensFrom_stringify numbers item _ (endsWord_cons (by decide) _), tokensFrom_mark (by decide),
            tokensFrom_items numbers (next :: items) rest hrest, Option.map_map, Option.map_map]
          congr 1
          funext ts
          simp only [Function.comp_apply, List.append_assoc]
          rfl

theorem tokensFrom_fields (numbers : NumberFormat num) (fields : List (List Nat × Json num))
    (rest : List Nat) (hrest : EndsWord rest) :
    tokensFrom .between (stringifyFields numbers fields ++ rest) =
      (tokensFrom .between rest).map (fieldTokens numbers fields ++ ·) := by
  cases fields with
  | nil => exact Option.map_id'.symm
  | cons field fields =>
      rcases field with ⟨key, value⟩
      rw [stringifyFields, fieldTokens, List.append_assoc, List.cons_append, tokensFrom_quoted,
        tokensFrom_mark (by decide), List.append_assoc]
      cases fields with
      | nil =>
          show ((tokensFrom .between (stringify numbers value ++ rest)).map _).map _ = _
          rw [tokensFrom_stringify numbers value rest hrest, List.isEmpty_nil, if_pos rfl,
            List.append_nil, Option.map_map, Option.map_map]
          rfl
      | cons next fields =>
          show ((tokensFrom .between (stringify numbers value ++
            comma :: (stringifyFields numbers (next :: fields) ++ rest))).map _).map _ = _
          rw [tokensFrom_stringify numbers value _ (endsWord_cons (by decide) _),
            tokensFrom_mark (by decide), tokensFrom_fields numbers (next :: fields) rest hrest,
            Option.map_map, Option.map_map, Option.map_map, Option.map_map]
          congr 1
          funext ts
          simp only [Function.comp_apply, List.cons_append, List.append_assoc]
          rfl

end

/-!
## Reading the tokens
-/

mutual

/-- No object names a property twice. -/
def Distinct : Json num -> Prop
  | .array items => DistinctItems items
  | .object fields => (fields.map (·.1)).Nodup ∧ DistinctFields fields
  | _ => True

def DistinctItems : List (Json num) -> Prop
  | [] => True
  | item :: rest => Distinct item ∧ DistinctItems rest

def DistinctFields : List (List Nat × Json num) -> Prop
  | [] => True
  | (_, value) :: rest => Distinct value ∧ DistinctFields rest

end

/-- The reading takes the next token as the beginning of a value. -/
def AwaitsValue (numbers : NumberFormat num) (reading : Reading num) (stack : List (Frame num)) :
    Prop :=
  forall token, token ≠ .mark rightBracket ->
    readToken numbers reading token = beginValue numbers stack token

def AwaitsKey (numbers : NumberFormat num) (reading : Reading num) (stack : List (Frame num)) :
    Prop :=
  forall token, token ≠ .mark rightBrace -> readToken numbers reading token = readKey stack token

variable {numbers : NumberFormat num}

theorem awaitsValue_value (stack : List (Frame num)) :
    AwaitsValue numbers ⟨stack, .value⟩ stack := by
  intro token _
  rfl

theorem awaitsValue_firstItem (stack : List (Frame num)) :
    AwaitsValue numbers ⟨.items [] :: stack, .firstItem⟩ (.items [] :: stack) := by
  intro token htoken
  simp only [readToken, if_neg htoken]

theorem awaitsKey_key (stack : List (Frame num)) : AwaitsKey numbers ⟨stack, .key⟩ stack := by
  intro token _
  rfl

theorem awaitsKey_firstKey (stack : List (Frame num)) :
    AwaitsKey numbers ⟨.fields [] :: stack, .firstKey⟩ (.fields [] :: stack) := by
  intro token htoken
  simp only [readToken, if_neg htoken]

theorem setField_append {key : List Nat} {done : List (List Nat × Json num)}
    (h : key ∉ done.map (·.1)) (value : Json num) :
    setField key value done = done ++ [(key, value)] := by
  induction done with
  | nil => rfl
  | cons field done ih =>
      rw [List.map_cons, List.mem_cons, not_or] at h
      rw [setField, if_neg (Ne.symm h.1), ih h.2, List.cons_append]

theorem readTokens_cons {reading r : Reading num} {token : Token} {rest : List Token}
    (h : readToken numbers reading token = some r) :
    readTokens numbers reading (token :: rest) = readTokens numbers r rest := by
  rw [readTokens, h]
  rfl

theorem wordValue_number (n : num) : wordValue numbers (numbers.format n) = some (.number n) := by
  have hlexeme := numbers.lexeme n
  have hname : forall name : String, isNumberLexeme (stringUnits name) = false ->
      numbers.format n ≠ stringUnits name := by
    intro name hfalse heq
    rw [heq, hfalse] at hlexeme
    cases hlexeme
  rw [wordValue, if_neg (hname "null" (by decide +kernel)),
    if_neg (hname "true" (by decide +kernel)), if_neg (hname "false" (by decide +kernel)),
    if_pos hlexeme, numbers.read_format]

mutual

/-- The tokens of a value deliver it. -/
theorem readTokens_value (x : Json num) (hx : Distinct x) {reading : Reading num}
    {stack : List (Frame num)} (hreading : AwaitsValue numbers reading stack)
    (rest : List Token) :
    readTokens numbers reading (tokens numbers x ++ rest) =
      readTokens numbers ⟨stack, .read x⟩ rest := by
  cases x with
  | null =>
      apply readTokens_cons
      rw [hreading _ (by decide)]
      rfl
  | bool value =>
      cases value with
      | true =>
          apply readTokens_cons
          rw [hreading _ (by decide)]
          rfl
      | false =>
          apply readTokens_cons
          rw [hreading _ (by decide)]
          rfl
  | number n =>
      apply readTokens_cons
      rw [hreading _ (by simp), beginValue, wordValue_number]
      rfl
  | string text =>
      apply readTokens_cons
      rw [hreading _ (by simp)]
      rfl
  | array items =>
      have hopen : readToken numbers reading (.mark leftBracket) =
          some ⟨.items [] :: stack, .firstItem⟩ := hreading _ (by decide)
      rw [tokens, List.cons_append, readTokens_cons hopen, List.append_assoc]
      cases items with
      | nil => exact readTokens_cons rfl
      | cons item items =>
          exact readTokens_items (item :: items) (List.cons_ne_nil _ _) hx
            (awaitsValue_firstItem stack) rest
  | object fields =>
      have hopen : readToken numbers reading (.mark leftBrace) =
          some ⟨.fields [] :: stack, .firstKey⟩ := hreading _ (by decide)
      rw [tokens, List.cons_append, readTokens_cons hopen, List.append_assoc]
      cases fields with
      | nil => exact readTokens_cons rfl
      | cons field fields =>
          exact readTokens_fields (field :: fields) (List.cons_ne_nil _ _) hx.2 hx.1
            (awaitsKey_firstKey stack) rest

theorem readTokens_items (items : List (Json num)) (hne : items ≠ [])
    (hitems : DistinctItems items) {reading : Reading num} {stack : List (Frame num)}
    {done : List (Json num)} (hreading : AwaitsValue numbers reading (.items done :: stack))
    (rest : List Token) :
    readTokens numbers reading (itemTokens numbers items ++ ([.mark rightBracket] ++ rest)) =
      readTokens numbers ⟨stack, .read (.array (done ++ items))⟩ rest := by
  cases items with
  | nil => exact absurd rfl hne
  | cons item items =>
      rw [itemTokens, List.append_assoc, readTokens_value item hitems.1 hreading]
      cases items with
      | nil => exact readTokens_cons rfl
      | cons next items =>
          show readTokens numbers _ (.mark comma :: (itemTokens numbers (next :: items) ++ _)) = _
          rw [readTokens_cons (r := ⟨.items (done ++ [item]) :: stack, .value⟩) rfl,
            readTokens_items (next :: items) (List.cons_ne_nil _ _) hitems.2
              (awaitsValue_value _), List.append_assoc]
          rfl

theorem readTokens_fields (fields : List (List Nat × Json num)) (hne : fields ≠ [])
    (hfields : DistinctFields fields) {reading : Reading num} {stack : List (Frame num)}
    {done : List (List Nat × Json num)} (hdone : ((done ++ fields).map (·.1)).Nodup)
    (hreading : AwaitsKey numbers reading (.fields done :: stack)) (rest : List Token) :
    readTokens numbers reading (fieldTokens numbers fields ++ ([.mark rightBrace] ++ rest)) =
      readTokens numbers ⟨stack, .read (.object (done ++ fields))⟩ rest := by
  cases fields with
  | nil => exact absurd rfl hne
  | cons field fields =>
      rcases field with ⟨key, value⟩
      have hkey : readToken numbers reading (.text key) = some ⟨.fields done :: stack, .colon key⟩ :=
        hreading _ (by simp)
      have hfresh : key ∉ done.map (·.1) := by
        rw [List.map_append, List.map_cons] at hdone
        intro hmem
        exact (List.nodup_append.mp hdone).2.2 key hmem key List.mem_cons_self rfl
      have hset := setField_append hfresh value
      rw [fieldTokens, List.cons_append, readTokens_cons hkey, List.cons_append,
        readTokens_cons (r := ⟨.field done key :: stack, .value⟩) rfl, List.append_assoc,
        readTokens_value value hfields.1 (awaitsValue_value _)]
      cases fields with
      | nil =>
          apply readTokens_cons
          show some (Reading.mk stack (.read (.object (setField key value done)))) = _
          rw [hset]
      | cons next fields =>
          have hcomma : readToken numbers ⟨.field done key :: stack, .read value⟩ (.mark comma) =
              some ⟨.fields (done ++ [(key, value)]) :: stack, .key⟩ := by
            show some (Reading.mk (.fields (setField key value done) :: stack) .key) = _
            rw [hset]
          have hdone' : ((done ++ [(key, value)] ++ next :: fields).map (·.1)).Nodup := by
            rw [List.append_assoc]
            exact hdone
          show readTokens numbers _ (.mark comma :: (fieldTokens numbers (next :: fields) ++ _)) = _
          rw [readTokens_cons hcomma, readTokens_fields (next :: fields) (List.cons_ne_nil _ _)
            hfields.2 hdone' (awaitsKey_key _), List.append_assoc]
          rfl

end

/-- What was written is read back. -/
theorem parse_stringify {x : Json num} (hx : Distinct x) :
    parse numbers (stringify numbers x) = some x := by
  have htokens := tokensFrom_stringify numbers x [] rfl
  have hread := readTokens_value x hx (@awaitsValue_value _ numbers []) []
  rw [List.append_nil] at htokens hread
  have hall : tokensFrom .between (stringify numbers x) = some (tokens numbers x) := by
    rw [htokens]
    show some (tokens numbers x ++ []) = _
    rw [List.append_nil]
  rw [parse, hall, Option.bind_some, hread]
  rfl

end Json
end Foundation
end CatFactory
