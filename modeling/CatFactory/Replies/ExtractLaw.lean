import CatFactory.Replies.BalancedSpan

/-!
# What is taken from a reply

A value is read from a part of the reply, as written wherever that is possible, and
a value that was written into a reply comes back unless a fenced block inside it
holds another one.
-/

namespace CatFactory
namespace Replies

open Foundation

variable {source : List Nat} {num : Type}

/-!
## The search
-/

@[simp]
theorem orElse_null (later : Json num) : orElse .null later = later :=
  rfl

theorem orElse_of_ne {value : Json num} (h : value ≠ .null) (later : Json num) :
    orElse value later = value := by
  cases value with
  | null => exact absurd rfl h
  | bool b => rfl
  | number n => rfl
  | string text => rfl
  | array items => rfl
  | object fields => rfl

def firstValue (values : List (Json num)) : Json num :=
  values.foldr orElse .null

theorem firstValue_null {values : List (Json num)} (h : forall v, v ∈ values -> v = .null) :
    firstValue values = .null := by
  induction values with
  | nil => rfl
  | cons value values ih =>
      show orElse value (firstValue values) = .null
      rw [h value List.mem_cons_self, orElse_null]
      exact ih fun v hv => h v (List.mem_cons_of_mem value hv)

theorem firstValue_mem {values : List (Json num)} (h : firstValue values ≠ .null) :
    firstValue values ∈ values := by
  induction values with
  | nil => exact absurd rfl h
  | cons value values ih =>
      by_cases hvalue : value = .null
      · rw [hvalue] at h ⊢
        exact List.mem_cons_of_mem _ (ih h)
      · show orElse value (firstValue values) ∈ value :: values
        rw [orElse_of_ne hvalue]
        exact List.mem_cons_self

theorem eq_null_of_firstValue {values : List (Json num)} (h : firstValue values = .null)
    {v : Json num} (hv : v ∈ values) : v = .null := by
  induction values with
  | nil => cases hv
  | cons value values ih =>
      by_cases hvalue : value = .null
      · cases hv with
        | head => exact hvalue
        | tail _ hv =>
            rw [hvalue] at h
            exact ih h hv
      · have hfirst : orElse value (firstValue values) = .null := h
        rw [orElse_of_ne hvalue] at hfirst
        exact absurd hfirst hvalue

theorem firstValue_append (values later : List (Json num)) :
    firstValue (values ++ later) = orElse (firstValue values) (firstValue later) := by
  induction values with
  | nil => rfl
  | cons value values ih =>
      show orElse value (firstValue (values ++ later)) =
        orElse (orElse value (firstValue values)) (firstValue later)
      by_cases hvalue : value = .null
      · rw [hvalue, orElse_null, orElse_null, ih]
      · rw [orElse_of_ne hvalue, orElse_of_ne hvalue, orElse_of_ne hvalue]

section Law

variable {numbers : Json.NumberFormat num} {mode : ParseMode}

/-- A bracket position of the source, with what is left there. -/
structure BracketAt (source front : List Nat) (ch : Nat) (back : List Nat) : Prop where
  text : source = front ++ ch :: back
  bracket : isBracket ch = true

/-- Some bracket position starts a balanced span that parses as written. -/
def ReadsAsWritten (numbers : Json.NumberFormat num) (source : List Nat) : Prop :=
  exists front ch back, BracketAt source front ch back ∧
    parseBalancedFrom numbers .strict (ch :: back) ≠ .null

theorem extractJsonValue_null (h : forall front ch back, BracketAt source front ch back ->
    parseBalancedFrom numbers mode (ch :: back) = .null) :
    extractJsonValue numbers mode source = .null := by
  induction source with
  | nil => rfl
  | cons ch rest ih =>
      have hrest : extractJsonValue numbers mode rest = .null := by
        apply ih
        intro front ch' back hat
        exact h (ch :: front) ch' back ⟨congrArg (List.cons ch) hat.text, hat.bracket⟩
      rw [extractJsonValue, hrest]
      split
      · next hbracket => rw [h [] ch rest ⟨rfl, hbracket⟩, orElse_null]
      · rfl

theorem extractJsonValue_at (h : extractJsonValue numbers mode source ≠ .null) :
    exists front ch back, BracketAt source front ch back ∧
      extractJsonValue numbers mode source = parseBalancedFrom numbers mode (ch :: back) := by
  induction source with
  | nil => exact absurd rfl h
  | cons ch rest ih =>
      have hlater : extractJsonValue numbers mode rest ≠ .null ->
          extractJsonValue numbers mode (ch :: rest) = extractJsonValue numbers mode rest ->
          exists front ch' back, BracketAt (ch :: rest) front ch' back ∧
            extractJsonValue numbers mode (ch :: rest) =
              parseBalancedFrom numbers mode (ch' :: back) := by
        intro hne heq
        rcases ih hne with ⟨front, ch', back, hat, hvalue⟩
        exact ⟨ch :: front, ch', back, ⟨congrArg (List.cons ch) hat.text, hat.bracket⟩,
          heq.trans hvalue⟩
      by_cases hbracket : isBracket ch = true
      · by_cases hhere : parseBalancedFrom numbers mode (ch :: rest) = .null
        · have heq : extractJsonValue numbers mode (ch :: rest) =
              extractJsonValue numbers mode rest := by
            rw [extractJsonValue, if_pos hbracket, hhere, orElse_null]
          exact hlater (heq ▸ h) heq
        · refine ⟨[], ch, rest, ⟨rfl, hbracket⟩, ?_⟩
          rw [extractJsonValue, if_pos hbracket, orElse_of_ne hhere]
      · have heq : extractJsonValue numbers mode (ch :: rest) =
            extractJsonValue numbers mode rest := by
          rw [extractJsonValue, if_neg hbracket]
        exact hlater (heq ▸ h) heq

theorem not_readsAsWritten
    (h : extractJsonValue numbers .strict source = .null) : ¬ ReadsAsWritten numbers source := by
  induction source with
  | nil =>
      rintro ⟨front, ch, back, hat, _⟩
      exact absurd hat.text.symm (List.append_ne_nil_of_right_ne_nil front (List.cons_ne_nil _ _))
  | cons c rest ih =>
      rintro ⟨front, ch, back, hat, hvalue⟩
      have htext := hat.text
      rw [extractJsonValue] at h
      cases front with
      | nil =>
          rw [List.nil_append, List.cons.injEq] at htext
          rcases htext with ⟨rfl, rfl⟩
          rw [if_pos hat.bracket, orElse_of_ne hvalue] at h
          exact hvalue h
      | cons d front =>
          rw [List.cons_append, List.cons.injEq] at htext
          have hrest : extractJsonValue numbers .strict rest = .null := by
            split at h
            · by_cases hhere : parseBalancedFrom numbers .strict (c :: rest) = .null
              · rwa [hhere, orElse_null] at h
              · rw [orElse_of_ne hhere] at h
                exact absurd h hhere
            · exact h
          exact ih hrest ⟨front, ch, back, ⟨htext.2, hat.bracket⟩, hvalue⟩

theorem extractJsonValue_strict (h : ¬ ReadsAsWritten numbers source) :
    extractJsonValue numbers .strict source = .null := by
  apply extractJsonValue_null
  intro front ch back hat
  by_contra hvalue
  exact h ⟨front, ch, back, hat, hvalue⟩

theorem extractJson_eq (numbers : Json.NumberFormat num) (text : List Nat) :
    extractJson numbers text =
      orElse (firstValue ((sourcesOf text).map (extractJsonValue numbers .strict)))
        (firstValue ((sourcesOf text).map (extractJsonValue numbers .repair))) := by
  rw [← firstValue_append]
  show firstValue _ = firstValue _
  simp only [PARSE_MODES, List.flatMap_cons, List.flatMap_nil, List.append_nil]

/-!
## Spans
-/

theorem balancedFrom_nil (opening depth : Nat) (inString escaped : Bool) :
    balancedFrom opening depth inString escaped [] = none := by
  cases inString <;> rfl

/-- A unit is passed over, or it closes the span. -/
theorem balancedFrom_step (opening depth : Nat) (inString escaped : Bool) (ch : Nat) :
    (exists depth' inString' escaped', forall rest,
      balancedFrom opening depth inString escaped (ch :: rest) =
        (balancedFrom opening depth' inString' escaped' rest).map (ch :: ·)) ∨
    ch = closing opening ∧ forall rest,
      balancedFrom opening depth inString escaped (ch :: rest) = some [ch] := by
  cases inString with
  | true =>
      cases escaped with
      | true => exact Or.inl ⟨depth, true, false, fun _ => rfl⟩
      | false => exact Or.inl ⟨depth, _, _, fun _ => rfl⟩
  | false =>
      simp only [balancedFrom]
      by_cases hquote : ch = Json.quote
      · simp only [if_pos hquote]
        exact Or.inl ⟨depth, true, false, fun _ => rfl⟩
      · by_cases hopening : ch = opening
        · simp only [if_neg hquote, if_pos hopening]
          exact Or.inl ⟨depth + 1, false, false, fun _ => rfl⟩
        · by_cases hclosing : ch = closing opening
          · simp only [if_neg hquote, if_neg hopening, if_pos hclosing]
            by_cases hdepth : depth - 1 = 0
            · simp only [if_pos hdepth]
              exact Or.inr ⟨hclosing, fun _ => trivial⟩
            · simp only [if_neg hdepth]
              exact Or.inl ⟨depth - 1, false, false, fun _ => rfl⟩
          · simp only [if_neg hquote, if_neg hopening, if_neg hclosing]
            exact Or.inl ⟨depth, false, false, fun _ => rfl⟩

theorem balancedFrom_prefix {opening depth : Nat} {inString escaped : Bool}
    {text span : List Nat} (h : balancedFrom opening depth inString escaped text = some span) :
    span <+: text := by
  induction text generalizing depth inString escaped span with
  | nil =>
      rw [balancedFrom_nil] at h
      cases h
  | cons ch rest ih =>
      rcases balancedFrom_step opening depth inString escaped ch with
        ⟨depth', inString', escaped', hstep⟩ | ⟨_, hstep⟩
      · rw [hstep] at h
        rcases Option.map_eq_some_iff.mp h with ⟨span', hspan', rfl⟩
        exact List.cons_prefix_cons.mpr ⟨rfl, ih hspan'⟩
      · rw [hstep] at h
        cases h
        exact List.cons_prefix_cons.mpr ⟨rfl, List.nil_prefix⟩

theorem closing_not_space (opening : Nat) : isSpaceUnit (closing opening) = false := by
  rw [closing]
  split
  · decide
  · decide

/-- White space at the end closes nothing. -/
theorem balancedFrom_blank {opening depth : Nat} {inString escaped : Bool} {text tail : List Nat}
    (htail : forall u, u ∈ tail -> isSpaceUnit u = true) :
    balancedFrom opening depth inString escaped (text ++ tail) =
      balancedFrom opening depth inString escaped text := by
  induction text generalizing depth inString escaped with
  | nil =>
      rw [List.nil_append, balancedFrom_nil]
      induction tail generalizing depth inString escaped with
      | nil => exact balancedFrom_nil opening depth inString escaped
      | cons u tail ih =>
          rcases balancedFrom_step opening depth inString escaped u with
            ⟨depth', inString', escaped', hstep⟩ | ⟨hclosing, _⟩
          · rw [hstep, ih fun v hv => htail v (List.mem_cons_of_mem u hv)]
            rfl
          · have hspace := htail u List.mem_cons_self
            rw [hclosing, closing_not_space] at hspace
            cases hspace
  | cons ch rest ih =>
      rcases balancedFrom_step opening depth inString escaped ch with
        ⟨depth', inString', escaped', hstep⟩ | ⟨_, hstep⟩
      · rw [List.cons_append, hstep, hstep, ih]
      · rw [List.cons_append, hstep, hstep]

/-- The value was read from this span, as written or with its control characters
escaped. -/
def ReadFrom (numbers : Json.NumberFormat num) (mode : ParseMode) (span : List Nat)
    (value : Json num) : Prop :=
  match mode with
  | .strict => Json.parse numbers span = some value
  | .repair => Json.parse numbers (escapeControlCharsInStrings span) = some value

theorem parseSpan_readFrom {span : List Nat} (h : parseSpan numbers span mode ≠ .null) :
    ReadFrom numbers mode span (parseSpan numbers span mode) := by
  have hget : forall {found : Option (Json num)}, found.getD .null ≠ .null ->
      found = some (found.getD .null) := by
    intro found hne
    cases found with
    | none => exact absurd rfl hne
    | some value => rfl
  simp only [parseSpan] at h ⊢
  split at h
  · exact absurd rfl h
  · next hrepair =>
      rw [if_neg hrepair]
      cases mode with
      | strict => exact hget h
      | repair => exact hget h

theorem parseBalancedFrom_readFrom {candidate : List Nat}
    (h : parseBalancedFrom numbers mode candidate ≠ .null) :
    exists span, span <+: candidate ∧
      ReadFrom numbers mode span (parseBalancedFrom numbers mode candidate) := by
  rw [parseBalancedFrom] at h ⊢
  cases hspan : balancedFrom (candidate.headD 0) 0 false false candidate with
  | none =>
      rw [hspan] at h
      exact absurd rfl h
  | some span =>
      rw [hspan] at h
      exact ⟨span, balancedFrom_prefix hspan, parseSpan_readFrom h⟩

theorem extractJsonValue_readFrom (h : extractJsonValue numbers mode source ≠ .null) :
    exists span, span <:+: source ∧
      ReadFrom numbers mode span (extractJsonValue numbers mode source) := by
  rcases extractJsonValue_at h with ⟨front, ch, back, hat, hvalue⟩
  rw [hvalue] at h ⊢
  rcases parseBalancedFrom_readFrom h with ⟨span, hspan, hread⟩
  refine ⟨span, ?_, hread⟩
  rw [hat.text]
  exact hspan.isInfix.trans (List.suffix_append front (ch :: back)).isInfix

/-!
## Trimming
-/

theorem exists_trim (text : List Nat) :
    exists lead trail, text = lead ++ (trim text ++ trail) ∧
      (forall u, u ∈ lead -> isSpaceUnit u = true) ∧
      forall u, u ∈ trail -> isSpaceUnit u = true := by
  have hlead := List.takeWhile_append_dropWhile (p := isSpaceUnit) (l := text)
  have htrail := List.takeWhile_append_dropWhile (p := isSpaceUnit)
    (l := (text.dropWhile isSpaceUnit).reverse)
  refine ⟨text.takeWhile isSpaceUnit,
    ((text.dropWhile isSpaceUnit).reverse.takeWhile isSpaceUnit).reverse, ?_,
    fun u hu => List.mem_takeWhile_imp hu, ?_⟩
  · rw [trim, trimEnd, ← List.reverse_append, htrail, List.reverse_reverse, hlead]
  · intro u hu
    exact List.mem_takeWhile_imp (List.mem_reverse.mp hu)

theorem bracket_not_space {ch : Nat} (h : isBracket ch = true) : isSpaceUnit ch = false := by
  simp only [isBracket, List.mem_cons, List.not_mem_nil, or_false, decide_eq_true_eq] at h
  cases h with
  | inl h => rw [h]; decide
  | inr h => rw [h]; decide

/-- The bracket positions of a text are those of the text trimmed. -/
theorem readsAsWritten_trim {text : List Nat} (h : ReadsAsWritten numbers text) :
    ReadsAsWritten numbers (trim text) := by
  rcases h with ⟨front, ch, back, hat, hvalue⟩
  rcases exists_trim text with ⟨lead, trail, htext, hlead, htrail⟩
  have hspace := bracket_not_space hat.bracket
  have hblank : forall {blank : List Nat}, (forall u, u ∈ blank -> isSpaceUnit u = true) ->
      ch ∉ blank := by
    intro blank hall hmem
    rw [hall ch hmem] at hspace
    cases hspace
  have hsplit := htext.symm.trans hat.text
  have hafterLead : exists front', trim text ++ trail = front' ++ ch :: back := by
    cases List.append_eq_append_iff.mp hsplit with
    | inl hlong =>
        rcases hlong with ⟨front', _, hrest⟩
        exact ⟨front', hrest⟩
    | inr hshort =>
        rcases hshort with ⟨tail, hleadEq, hrest⟩
        cases tail with
        | nil => exact ⟨[], hrest.symm⟩
        | cons u tail =>
            rw [List.cons_append, List.cons.injEq] at hrest
            rw [hleadEq, ← hrest.1] at hlead
            exact absurd (List.mem_append_right front List.mem_cons_self) (hblank hlead)
  rcases hafterLead with ⟨front', hrest⟩
  cases List.append_eq_append_iff.mp hrest with
  | inl hlong =>
      rcases hlong with ⟨tail, _, htrailEq⟩
      rw [htrailEq] at htrail
      exact absurd (List.mem_append_right tail List.mem_cons_self) (hblank htrail)
  | inr hshort =>
      rcases hshort with ⟨tail, htrim, hback⟩
      cases tail with
      | nil =>
          rw [List.nil_append] at hback
          rw [← hback] at htrail
          exact absurd List.mem_cons_self (hblank htrail)
      | cons u tail =>
          rw [List.cons_append, List.cons.injEq] at hback
          rcases hback with ⟨rfl, rfl⟩
          refine ⟨front', ch, tail, ⟨htrim, hat.bracket⟩, ?_⟩
          rw [parseBalancedFrom, ← List.cons_append, balancedFrom_blank htrail] at hvalue
          exact hvalue

theorem trim_within (text : List Nat) : trim text <:+: text := by
  rcases exists_trim text with ⟨lead, trail, htext, _⟩
  refine ⟨lead, trail, ?_⟩
  rw [List.append_assoc]
  exact htext.symm

theorem source_within {text source : List Nat} (h : source ∈ sourcesOf text) :
    source <:+: text := by
  cases List.mem_append.mp h with
  | inl hbody =>
      rcases List.mem_map.mp hbody with ⟨m, hm, rfl⟩
      exact (matchesFrom_within hm bodyGroup).trans (trim_within text)
  | inr htrim =>
      rw [List.mem_singleton.mp htrim]
      exact trim_within text

/-- Text before a written container and after it is trimmed, the container is not. -/
theorem trim_around {opening : Nat} (h : IsOpening opening) (before inner after : List Nat) :
    trim (before ++ (opening :: (inner ++ [closing opening]) ++ after)) =
      before.dropWhile isSpaceUnit ++
        (opening :: (inner ++ [closing opening]) ++ trimEnd after) := by
  have hspace : isSpaceUnit opening = false := by
    cases h with
    | inl h => rw [h]; decide
    | inr h => rw [h]; decide
  have hdrop : (before ++ (opening :: (inner ++ [closing opening]) ++ after)).dropWhile
      isSpaceUnit =
      before.dropWhile isSpaceUnit ++ (opening :: (inner ++ [closing opening]) ++ after) := by
    rw [List.dropWhile_append]
    split
    · next hempty =>
        rw [List.isEmpty_iff.mp hempty, List.cons_append,
          List.dropWhile_cons_of_neg (by rw [hspace]; exact Bool.false_ne_true)]
        rfl
    · rfl
  have hclosed : trimEnd [closing opening] = [closing opening] := by
    rw [trimEnd, List.reverse_singleton,
      List.dropWhile_cons_of_neg (by rw [closing_not_space]; exact Bool.false_ne_true)]
    rfl
  have hcore : forall front : List Nat,
      trimEnd (front ++ opening :: (inner ++ [closing opening])) =
        front ++ opening :: (inner ++ [closing opening]) := by
    intro front
    rw [← List.cons_append, ← List.append_assoc, trimEnd_append, hclosed,
      if_neg (List.cons_ne_nil _ _)]
  rw [trim, hdrop, ← List.append_assoc, trimEnd_append]
  split
  · next hblank =>
      rw [hblank, List.append_nil]
      exact hcore _
  · rw [List.append_assoc]

/-!
## The law
-/

/-- A text without brackets and braces. -/
def BracketFree (text : List Nat) : Prop :=
  forall u, u ∈ text ->
    u ∉ [Json.leftBracket, Json.rightBracket, Json.leftBrace, Json.rightBrace]

theorem extractJsonValue_skip {front : List Nat} (h : BracketFree front) (back : List Nat) :
    extractJsonValue numbers mode (front ++ back) = extractJsonValue numbers mode back := by
  induction front with
  | nil => rfl
  | cons u front ih =>
      have hu := h u List.mem_cons_self
      have hbracket : isBracket u = false := by
        apply decide_eq_false
        intro hmem
        apply hu
        simp only [List.mem_cons, List.not_mem_nil, or_false] at hmem ⊢
        cases hmem with
        | inl hmem => exact Or.inl hmem
        | inr hmem => exact Or.inr (Or.inr (Or.inl hmem))
      rw [List.cons_append, extractJsonValue, hbracket, if_neg Bool.false_ne_true]
      exact ih fun v hv => h v (List.mem_cons_of_mem u hv)

theorem extractJsonValue_container {x : Json num} (hx : IsContainer x) (hdistinct : x.Distinct)
    (after : List Nat) :
    extractJsonValue numbers .strict (Json.stringify numbers x ++ after) = x := by
  rcases stringify_container numbers hx with ⟨opening, inner, hopening, hinner, htext⟩
  have hbracket : isBracket opening = true := by
    cases hopening with
    | inl h => rw [h]; decide
    | inr h => rw [h]; decide
  have hparse : parseBalancedFrom numbers .strict (Json.stringify numbers x ++ after) = x := by
    have hspan := balancedFrom_container hopening hinner after
    rw [← htext] at hspan
    have hhead : (Json.stringify numbers x ++ after).headD 0 = opening := by
      rw [htext]
      rfl
    rw [parseBalancedFrom, hhead, hspan]
    simp only [parseSpan, Json.parse_stringify hdistinct]
    rfl
  have hne : x ≠ .null := by
    rintro rfl
    exact hx
  have hcons : Json.stringify numbers x ++ after =
      opening :: (inner ++ [closing opening] ++ after) := by
    rw [htext]
    rfl
  rw [hcons] at hparse ⊢
  rw [extractJsonValue, if_pos hbracket, hparse, orElse_of_ne hne]

/-- A written container comes back where no fenced block holds another value. -/
theorem extractJson_stringify {x : Json num} (hx : IsContainer x) (hdistinct : x.Distinct)
    {before after : List Nat} (hbefore : BracketFree before)
    (hbodies : forall body,
      body ∈ fencedBodies (trim (before ++ (Json.stringify numbers x ++ after))) ->
        ¬ ReadsAsWritten numbers body) :
    extractJson numbers (before ++ (Json.stringify numbers x ++ after)) = x := by
  have hne : x ≠ .null := by
    rintro rfl
    exact hx
  have hwhole : extractJsonValue numbers .strict
      (trim (before ++ (Json.stringify numbers x ++ after))) = x := by
    rcases stringify_container numbers hx with ⟨opening, inner, hopening, hinner, htext⟩
    rw [htext, trim_around hopening, ← htext, extractJsonValue_skip]
    · exact extractJsonValue_container hx hdistinct _
    · intro u hu
      exact hbefore u ((List.dropWhile_suffix isSpaceUnit).subset hu)
  have hfences : firstValue ((fencedBodies (trim (before ++ (Json.stringify numbers x ++
      after)))).map (extractJsonValue numbers .strict)) = .null := by
    apply firstValue_null
    intro v hv
    rcases List.mem_map.mp hv with ⟨body, hbody, rfl⟩
    exact extractJsonValue_strict (hbodies body hbody)
  have hstrict : firstValue ((sourcesOf (before ++ (Json.stringify numbers x ++ after))).map
      (extractJsonValue numbers .strict)) = x := by
    rw [sourcesOf, List.map_append, firstValue_append, hfences, orElse_null]
    show orElse (extractJsonValue numbers .strict _) .null = x
    rw [hwhole, orElse_of_ne hne]
  rw [extractJson_eq, hstrict, orElse_of_ne hne]

structure ExtractLaw (numbers : Json.NumberFormat num) : Prop where
  roundTrip : forall (x : Json num) (before after : List Nat), IsContainer x -> x.Distinct ->
    BracketFree before ->
    (forall body, body ∈ fencedBodies (trim (before ++ (Json.stringify numbers x ++ after))) ->
      ¬ ReadsAsWritten numbers body) ->
    extractJson numbers (before ++ (Json.stringify numbers x ++ after)) = x
  sound : forall text, extractJson numbers text ≠ .null ->
    exists mode span, span <:+: text ∧ ReadFrom numbers mode span (extractJson numbers text)
  /-- A value is read as written from a bracket position of a source, or none could be. -/
  repaired : forall text, extractJson numbers text ≠ .null ->
    (exists source front ch back, source ∈ sourcesOf text ∧ BracketAt source front ch back ∧
      extractJson numbers text = parseBalancedFrom numbers .strict (ch :: back)) ∨
    ¬ ReadsAsWritten numbers text ∧
      forall body, body ∈ fencedBodies (trim text) -> ¬ ReadsAsWritten numbers body

theorem extractJson_mem {text : List Nat} (h : extractJson numbers text ≠ .null) :
    exists mode source, source ∈ sourcesOf text ∧
      extractJson numbers text = extractJsonValue numbers mode source := by
  rw [extractJson_eq] at h ⊢
  by_cases hstrict : firstValue ((sourcesOf text).map (extractJsonValue numbers .strict)) = .null
  · rw [hstrict, orElse_null] at h ⊢
    rcases List.mem_map.mp (firstValue_mem h) with ⟨source, hsource, hvalue⟩
    exact ⟨.repair, source, hsource, hvalue.symm⟩
  · rw [orElse_of_ne hstrict]
    rcases List.mem_map.mp (firstValue_mem hstrict) with ⟨source, hsource, hvalue⟩
    exact ⟨.strict, source, hsource, hvalue.symm⟩

theorem extractJson_law (numbers : Json.NumberFormat num) : ExtractLaw numbers := by
  constructor
  · intro x before after hx hdistinct hbefore hbodies
    exact extractJson_stringify hx hdistinct hbefore hbodies
  · intro text h
    rcases extractJson_mem h with ⟨mode, source, hsource, hvalue⟩
    rw [hvalue] at h ⊢
    rcases extractJsonValue_readFrom h with ⟨span, hspan, hread⟩
    exact ⟨mode, span, hspan.trans (source_within hsource), hread⟩
  · intro text h
    by_cases hstrict : firstValue ((sourcesOf text).map (extractJsonValue numbers .strict)) = .null
    · right
      have hsources : forall source, source ∈ sourcesOf text -> ¬ ReadsAsWritten numbers source :=
        fun source hsource =>
          not_readsAsWritten (eq_null_of_firstValue hstrict (List.mem_map_of_mem hsource))
      constructor
      · intro hreads
        exact hsources (trim text) (List.mem_append_right _ List.mem_cons_self)
          (readsAsWritten_trim hreads)
      · intro body hbody
        exact hsources body (List.mem_append_left _ hbody)
    · left
      rcases List.mem_map.mp (firstValue_mem hstrict) with ⟨source, hsource, hvalue⟩
      rw [extractJson_eq, orElse_of_ne hstrict, ← hvalue]
      rw [← hvalue] at hstrict
      rcases extractJsonValue_at hstrict with ⟨front, ch, back, hat, hfound⟩
      exact ⟨source, front, ch, back, hsource, hat, hfound⟩

end Law

/-!
## A value inside a value
-/

/-- Numbers as the texts they are written with. -/
def lexemes : Json.NumberFormat {word : List Nat // Json.isNumberLexeme word = true} where
  format n := n.val
  read word :=
    if h : Json.isNumberLexeme word = true then ⟨word, h⟩
    else ⟨stringUnits "0", by decide +kernel⟩
  lexeme n := n.property
  read_format n := by simp [n.property]

/-- An object whose string quotes a fenced array. -/
def quotingFence : Json {word : List Nat // Json.isNumberLexeme word = true} :=
  .object [(stringUnits "a", .string (stringUnits "```[1]```"))]

/-- The array in the fence is found before the object around it. -/
theorem not_roundTrip_quotingFence : IsContainer quotingFence ∧ quotingFence.Distinct ∧
    extractJson lexemes ([] ++ (Json.stringify lexemes quotingFence ++ [])) ≠ quotingFence := by
  refine ⟨trivial, ⟨List.pairwise_singleton _ _, trivial, trivial⟩, ?_⟩
  intro heq
  have hinner : extractJson lexemes ([] ++ (Json.stringify lexemes quotingFence ++ [])) =
      .array [.number ⟨stringUnits "1", by decide +kernel⟩] := by rfl
  rw [hinner] at heq
  cases heq

end Replies
end CatFactory
