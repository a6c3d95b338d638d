import CatFactory.Foundation.Delimiter
import CatFactory.Foundation.Text

/-!
# The managed section of a pull request

The engine keeps its report, and the bootstrap its adoption decisions, each as
a marked region of the pull request's description.  The markers are the only
record of where a region is: both the splice and the read search for them anew.
-/

namespace CatFactory
namespace Publishing

open Foundation

/-!
## Markers
-/

/-- The comment pair that delimits a region. -/
structure ManagedSectionMarkers where
  start : List Char
  stop : List Char

def prReportMarkers : ManagedSectionMarkers where
  start := "<!-- cat-factory:verification-report:start -->".toList
  stop := "<!-- cat-factory:verification-report:end -->".toList

def prAdoptionMarkers : ManagedSectionMarkers where
  start := "<!-- cat-factory:adoption-decisions:start -->".toList
  stop := "<!-- cat-factory:adoption-decisions:end -->".toList

inductive MarkerFamily where
  | report
  | adoption
deriving DecidableEq

namespace MarkerFamily

def markers : MarkerFamily -> ManagedSectionMarkers
  | report => prReportMarkers
  | adoption => prAdoptionMarkers

def other : MarkerFamily -> MarkerFamily
  | report => adoption
  | adoption => report

end MarkerFamily

/-- The texts that mark something. -/
def markerWords : List (List Char) :=
  [prReportMarkers.start, prReportMarkers.stop, prAdoptionMarkers.start,
    prAdoptionMarkers.stop]

/-- A section to publish, which holds no marker. -/
structure PlainSection where
  text : List Char
  plain : forall word, word ∈ markerWords -> ¬ word <:+: text

/-!
## Splicing and reading
-/

/-- `trim()` on characters. -/
def trimmed (text : List Char) : List Char :=
  trimChars isSpace text

def wrapped (markers : ManagedSectionMarkers) (content : List Char) : List Char :=
  markers.start ++ '\n' :: (trimmed content ++ ['\n']) ++ markers.stop

/-- Both searches succeed and the end marker comes second. -/
def managedRegion (existing : List Char) (markers : ManagedSectionMarkers) :
    Option (Nat × Nat) :=
  match indexOf markers.start existing, indexOf markers.stop existing with
  | some start, some stop => if start < stop then some (start, stop) else none
  | _, _ => none

def spliceManagedSection (body : Option (List Char)) (content : List Char)
    (markers : ManagedSectionMarkers) : List Char :=
  let existing := body.getD []
  match managedRegion existing markers with
  | some (start, stop) =>
      existing.take start ++ wrapped markers content ++
        existing.drop (stop + markers.stop.length)
  | none =>
      if trimmed existing ≠ [] then
        trimmed existing ++ ['\n', '\n'] ++ wrapped markers content ++ ['\n']
      else wrapped markers content ++ ['\n']

def readManagedSection (body : Option (List Char)) (markers : ManagedSectionMarkers) :
    Option (List Char) :=
  let existing := body.getD []
  match managedRegion existing markers with
  | some (start, stop) =>
      some (trimmed (slice existing (start + markers.start.length) stop))
  | none => none

example :
    readManagedSection (some (spliceManagedSection (some "Intro.".toList) "ok".toList
      prReportMarkers)) prReportMarkers = some "ok".toList := by
  decide

/-!
## The marker words
-/

variable {family : MarkerFamily}

theorem start_mem_markerWords (family : MarkerFamily) :
    family.markers.start ∈ markerWords := by
  cases family <;> simp [markerWords, MarkerFamily.markers]

theorem stop_mem_markerWords (family : MarkerFamily) :
    family.markers.stop ∈ markerWords := by
  cases family <;> simp [markerWords, MarkerFamily.markers]

theorem isTag_of_mem {word : List Char} (h : word ∈ markerWords) : IsTag '<' '>' word := by
  simp only [markerWords, List.mem_cons, List.not_mem_nil, or_false] at h
  constructor
  · exists word.tail.dropLast
    rcases h with rfl | rfl | rfl | rfl <;> decide
  · rcases h with rfl | rfl | rfl | rfl <;> decide
  · rcases h with rfl | rfl | rfl | rfl <;> decide

theorem isTag_start (family : MarkerFamily) : IsTag '<' '>' family.markers.start :=
  isTag_of_mem (start_mem_markerWords family)

theorem isTag_stop (family : MarkerFamily) : IsTag '<' '>' family.markers.stop :=
  isTag_of_mem (stop_mem_markerWords family)

theorem not_infix_of_ne {word tag : List Char} (hword : word ∈ markerWords)
    (htag : tag ∈ markerWords) (hne : word ≠ tag) : ¬ word <:+: tag :=
  fun h => hne ((isTag_of_mem hword).infix_eq (isTag_of_mem htag) h)

theorem start_ne_stop (family other : MarkerFamily) :
    family.markers.start ≠ other.markers.stop := by
  cases family <;> cases other <;> decide

theorem start_ne_other (family : MarkerFamily) :
    family.markers.start ≠ family.other.markers.start := by
  cases family <;> decide

theorem stop_ne_other (family : MarkerFamily) :
    family.markers.stop ≠ family.other.markers.stop := by
  cases family <;> decide

/-- Characters that no marker begins with stay outside its occurrences. -/
theorem apart_of_first_not_mem {word left right : List Char} (hword : word ∈ markerWords)
    (hleft : '<' ∉ left) : Apart word left right := by
  intro u v hu _ huv hsuffix _
  rcases (isTag_of_mem hword).shape with ⟨inner, hinner⟩
  cases u with
  | nil => exact hu rfl
  | cons c u =>
      have hc : '<' = c := by
        rw [hinner] at huv
        simp only [List.cons_append, List.cons.injEq] at huv
        exact huv.1
      rw [← hc] at hsuffix
      exact hleft (hsuffix.mem (List.mem_cons_self))

theorem not_infix_of_first_not_mem {word text : List Char} (hword : word ∈ markerWords)
    (htext : '<' ∉ text) : ¬ word <:+: text := by
  intro h
  rcases (isTag_of_mem hword).shape with ⟨inner, rfl⟩
  exact htext (h.mem List.mem_cons_self)

theorem apart_of_last_not_mem {word left right : List Char} (hword : word ∈ markerWords)
    (hright : '>' ∉ right) : Apart word left right := by
  intro u v _ hv huv _ hinit
  rcases (isTag_of_mem hword).shape with ⟨inner, hinner⟩
  rcases List.eq_nil_or_concat v with hnil | ⟨w, c, hc⟩
  · exact hv hnil
  · have hlast : c = '>' := by
      rw [hinner, hc, List.concat_eq_append, ← List.cons_append, ← List.append_assoc] at huv
      have := (List.append_inj' huv rfl).2
      simp only [List.cons.injEq, and_true] at this
      exact this.symm
    apply hright
    apply hinit.mem
    simp [hc, hlast]

/-- What is published between two markers holds no marker. -/
theorem plain_wrapped_inner (published : PlainSection) {word : List Char}
    (hword : word ∈ markerWords) :
    ¬ word <:+: '\n' :: (trimmed published.text ++ ['\n']) := by
  have hnewline : ¬ word <:+: ['\n'] := not_infix_of_first_not_mem hword (by decide)
  have hleft : Apart word ['\n'] (trimmed published.text ++ ['\n']) :=
    apart_of_first_not_mem hword (by decide)
  have hright : Apart word (trimmed published.text) ['\n'] :=
    apart_of_last_not_mem hword (by decide)
  have hcontent : ¬ word <:+: trimmed published.text :=
    fun h => published.plain word hword (h.trans (infix_trimChars published.text))
  rw [← List.singleton_append, infix_append_iff_of_apart hleft,
    infix_append_iff_of_apart hright]
  simp [hnewline, hcontent]

/-!
## Regions that a text carries
-/

/-- The text carries a region whose trimmed contents are these. -/
def Carries (markers : ManagedSectionMarkers) (text content : List Char) : Prop :=
  exists before inner after,
    Encloses markers.start markers.stop text before inner after ∧ trimmed inner = content

theorem managedRegion_eq_some {text before inner after : List Char}
    (h : Encloses family.markers.start family.markers.stop text before inner after) :
    managedRegion text family.markers =
      some (before.length, (before ++ family.markers.start ++ inner).length) := by
  have hne := (isTag_start family).ne_nil
  have hlt : before.length < (before ++ family.markers.start ++ inner).length := by
    have := List.length_pos_iff.mpr hne
    simp only [List.length_append]
    omega
  unfold managedRegion
  rw [h.indexOf_opening (isTag_start family), h.indexOf_closing (isTag_stop family)]
  exact if_pos hlt

theorem encloses_of_managedRegion {text : List Char} {start stop : Nat}
    (h : managedRegion text family.markers = some (start, stop)) :
    Encloses family.markers.start family.markers.stop text (text.take start)
      (slice text (start + family.markers.start.length) stop)
      (text.drop (stop + family.markers.stop.length)) := by
  unfold managedRegion at h
  split at h
  · rename_i i j hstart hstop
    split at h
    · rename_i hlt
      cases h
      exact encloses_of_indexOf (isTag_start family) (isTag_stop family) hstart hstop hlt
    · cases h
  · cases h

theorem read_eq_some_iff (family : MarkerFamily) (body : Option (List Char))
    (content : List Char) :
    readManagedSection body family.markers = some content <->
      Carries family.markers (body.getD []) content := by
  constructor
  · intro h
    unfold readManagedSection at h
    cases hregion : managedRegion (body.getD []) family.markers with
    | none => simp [hregion] at h
    | some region =>
        simp only [hregion, Option.some.injEq] at h
        exact ⟨_, _, _, encloses_of_managedRegion hregion, h⟩
  · rintro ⟨before, inner, after, h, rfl⟩
    unfold readManagedSection
    simp only [managedRegion_eq_some h]
    congr 2
    have hstart : before.length + family.markers.start.length =
        (before ++ family.markers.start).length := by simp
    have hlength : (before ++ family.markers.start ++ inner).length -
        (before ++ family.markers.start).length = inner.length := by
      rw [@List.length_append _ (before ++ family.markers.start), Nat.add_sub_cancel_left]
    rw [slice, hstart, hlength, h.text_eq, List.append_assoc, List.append_assoc,
      List.drop_left, List.take_left]

theorem splice_of_region {body : Option (List Char)} {before inner after : List Char}
    (content : List Char)
    (h : Encloses family.markers.start family.markers.stop (body.getD []) before inner
      after) :
    spliceManagedSection body content family.markers =
      before ++ wrapped family.markers content ++ after := by
  unfold spliceManagedSection
  simp only [managedRegion_eq_some h]
  congr 1
  · rw [h.text_eq, List.append_assoc, List.append_assoc, List.append_assoc, List.take_left]
  · rw [h.text_eq, ← List.length_append, List.drop_left]

/-- What the splice leaves in front of a fresh region. -/
def appendPrefix (existing : List Char) : List Char :=
  if trimmed existing ≠ [] then trimmed existing ++ ['\n', '\n'] else []

theorem splice_of_no_region {body : Option (List Char)} (content : List Char)
    (h : forall found, ¬ Carries family.markers (body.getD []) found) :
    spliceManagedSection body content family.markers =
      appendPrefix (body.getD []) ++ wrapped family.markers content ++ ['\n'] := by
  have hnone : managedRegion (body.getD []) family.markers = none := by
    cases hregion : managedRegion (body.getD []) family.markers with
    | none => rfl
    | some region =>
        exact absurd ⟨_, _, _, encloses_of_managedRegion hregion, rfl⟩ (h _)
  unfold spliceManagedSection appendPrefix
  simp only [hnone]
  split
  · rfl
  · simp

/-!
## Regions beside other text
-/

theorem carries_append_of_stop_left {left right : List Char}
    (hleft : family.markers.stop <:+: left) (content : List Char) :
    Carries family.markers (left ++ right) content <->
      Carries family.markers left content := by
  have hiff := @encloses_append_of_closing_left _ _ _ family.markers.start _
    (isTag_stop family) left right hleft
  constructor
  · rintro ⟨before, inner, after, h, hcontent⟩
    rcases (hiff before inner after).mp h with ⟨rest, hrest, _⟩
    exact ⟨before, inner, rest, hrest, hcontent⟩
  · rintro ⟨before, inner, rest, h, hcontent⟩
    exact ⟨before, inner, rest ++ right,
      (hiff before inner (rest ++ right)).mpr ⟨rest, h, rfl⟩, hcontent⟩

theorem not_carries_of_not_stop {markers : ManagedSectionMarkers} {text : List Char}
    (h : ¬ markers.stop <:+: text) (content : List Char) :
    ¬ Carries markers text content := by
  rintro ⟨before, inner, after, hregion, _⟩
  apply h
  rw [hregion.text_eq]
  exact ⟨before ++ markers.start ++ inner, after, rfl⟩

theorem carries_append_of_plain_left {left right : List Char}
    (hapart : forall word, word ∈ markerWords -> Apart word left right)
    (hstart : ¬ family.markers.start <:+: left) (hstop : ¬ family.markers.stop <:+: left)
    (content : List Char) :
    Carries family.markers (left ++ right) content <->
      Carries family.markers right content := by
  have hiff := encloses_append_of_plain_left (isTag_start family)
    (hapart _ (start_mem_markerWords family)) (hapart _ (stop_mem_markerWords family))
    hstart hstop
  constructor
  · rintro ⟨before, inner, after, h, hcontent⟩
    rcases (hiff before inner after).mp h with ⟨front, hfront, _⟩
    exact ⟨front, inner, after, hfront, hcontent⟩
  · rintro ⟨front, inner, after, h, hcontent⟩
    exact ⟨left ++ front, inner, after,
      (hiff (left ++ front) inner after).mpr ⟨front, h, rfl⟩, hcontent⟩

theorem carries_append_of_plain_right {left right : List Char}
    (hapart : Apart family.markers.stop left right) (hstop : ¬ family.markers.stop <:+: right)
    (content : List Char) :
    Carries family.markers (left ++ right) content <->
      Carries family.markers left content := by
  by_cases hleft : family.markers.stop <:+: left
  · exact carries_append_of_stop_left hleft content
  · have hall : ¬ family.markers.stop <:+: left ++ right := by
      rw [infix_append_iff_of_apart hapart]
      simp [hleft, hstop]
    exact iff_of_false (not_carries_of_not_stop hall content)
      (not_carries_of_not_stop hleft content)

/-- A region opened by the left text runs on into the right one. -/
theorem carries_append_of_start_left {front rest right : List Char}
    (hapart : Apart family.markers.stop (front ++ family.markers.start ++ rest) right)
    (hfront : ¬ family.markers.start <:+: front)
    (hstop : ¬ family.markers.stop <:+: front ++ family.markers.start ++ rest)
    (content : List Char) :
    Carries family.markers (front ++ family.markers.start ++ rest ++ right) content <->
      exists more after, right = more ++ family.markers.stop ++ after ∧
        ¬ family.markers.stop <:+: more ∧ trimmed (rest ++ more) = content := by
  have hiff := encloses_append_of_opening_left (isTag_start family) (isTag_stop family)
    hapart hfront hstop
  constructor
  · rintro ⟨before, inner, after, h, hcontent⟩
    rcases (hiff before inner after).mp h with ⟨_, more, hright, hmore, rfl⟩
    exact ⟨more, after, hright, hmore, hcontent⟩
  · rintro ⟨more, after, hright, hmore, hcontent⟩
    exact ⟨front, rest ++ more, after,
      (hiff front (rest ++ more) after).mpr ⟨rfl, more, hright, hmore, rfl⟩, hcontent⟩

/-!
## Surrounding white space
-/

theorem first_not_mem_of_space {text : List Char}
    (h : forall c, c ∈ text -> isSpace c = true) : '<' ∉ text :=
  fun hmem => absurd (h _ hmem) (by decide)

theorem last_not_mem_of_space {text : List Char}
    (h : forall c, c ∈ text -> isSpace c = true) : '>' ∉ text :=
  fun hmem => absurd (h _ hmem) (by decide)

theorem infix_trimmed_iff {word text : List Char} (hword : word ∈ markerWords) :
    word <:+: trimmed text <-> word <:+: text := by
  constructor
  · intro h
    exact h.trans (infix_trimChars text)
  · intro h
    rcases (isTag_of_mem hword).shape with ⟨inner, rfl⟩
    rcases h with ⟨front, back, rfl⟩
    rw [trimmed, trimChars_append (by decide) (by decide)]
    exact ⟨_, _, rfl⟩

theorem carries_trimmed_iff {text : List Char} (content : List Char) :
    Carries family.markers (trimmed text) content <->
      Carries family.markers text content := by
  rcases exists_trimChars_append isSpace text with ⟨front, back, htext, hfront, hback⟩
  have hleft := first_not_mem_of_space hfront
  have hright := last_not_mem_of_space hback
  have hstop := stop_mem_markerWords family
  conv_rhs => rw [htext]
  have hback' : ¬ family.markers.stop <:+: back :=
    not_infix_of_first_not_mem hstop (first_not_mem_of_space hback)
  rw [carries_append_of_plain_right (apart_of_last_not_mem hstop hright) hback',
    carries_append_of_plain_left (fun word hword => apart_of_first_not_mem hword hleft)
      (not_infix_of_first_not_mem (start_mem_markerWords family) hleft)
      (not_infix_of_first_not_mem hstop hleft)]
  rfl

theorem apart_newlines {word left : List Char} (hword : word ∈ markerWords) :
    Apart word left ['\n', '\n'] :=
  apart_of_last_not_mem hword (by decide)

theorem not_infix_newlines {word : List Char} (hword : word ∈ markerWords) :
    ¬ word <:+: ['\n', '\n'] :=
  not_infix_of_first_not_mem hword (by decide)

theorem infix_appendPrefix_iff {word existing : List Char} (hword : word ∈ markerWords) :
    word <:+: appendPrefix existing <-> word <:+: existing := by
  rw [← @infix_trimmed_iff word existing hword]
  unfold appendPrefix
  split
  · rw [infix_append_iff_of_apart (apart_newlines hword)]
    simp [not_infix_newlines hword]
  · rename_i hempty
    simp only [ne_eq, not_not] at hempty
    rw [hempty]

theorem carries_appendPrefix_iff {existing : List Char} (content : List Char) :
    Carries family.markers (appendPrefix existing) content <->
      Carries family.markers existing content := by
  rw [← @carries_trimmed_iff family existing]
  unfold appendPrefix
  split
  · have hstop := stop_mem_markerWords family
    exact carries_append_of_plain_right (apart_newlines hstop) (not_infix_newlines hstop)
      content
  · rename_i hempty
    simp only [ne_eq, not_not] at hempty
    rw [hempty]

/-!
## After a splice
-/

/-- The region that was written is the region that the next search finds. -/
theorem encloses_wrapped {before : List Char} (published : PlainSection)
    (hstart : ¬ family.markers.start <:+: before) (hstop : ¬ family.markers.stop <:+: before)
    (after : List Char) :
    Encloses family.markers.start family.markers.stop
      (before ++ wrapped family.markers published.text ++ after) before
      ('\n' :: (trimmed published.text ++ ['\n'])) after := by
  have hstopMem := stop_mem_markerWords family
  have hfront : Apart family.markers.stop before (family.markers.start ++ []) :=
    (isTag_stop family).apart_left (isTag_start family)
  have hback : Apart family.markers.stop (before ++ family.markers.start)
      ('\n' :: (trimmed published.text ++ ['\n'])) :=
    (isTag_stop family).apart_right (isTag_start family)
  have hother : ¬ family.markers.stop <:+: family.markers.start :=
    not_infix_of_ne hstopMem (start_mem_markerWords family)
      (start_ne_stop family family).symm
  rw [List.append_nil] at hfront
  constructor
  · simp [wrapped]
  · exact hstart
  · rw [infix_append_iff_of_apart hback, infix_append_iff_of_apart hfront]
    simp only [hstop, hother, plain_wrapped_inner published hstopMem, or_self,
      not_false_eq_true]

theorem trimmed_wrapped_inner (text : List Char) :
    trimmed ('\n' :: (trimmed text ++ ['\n'])) = trimmed text := by
  have hnewline : forall c, c ∈ ['\n'] -> isSpace c = true := by
    intro c hc
    rw [List.mem_singleton.mp hc]
    rfl
  have hsurround := trimChars_surround hnewline hnewline (trimmed text)
  exact hsurround.trans (trimChars_trimChars text)

/-- A published region holds no marker but its own. -/
theorem not_infix_wrapped (published : PlainSection) {word : List Char}
    (hword : word ∈ markerWords) (hstart : word ≠ family.markers.start)
    (hstop : word ≠ family.markers.stop) :
    ¬ word <:+: wrapped family.markers published.text := by
  have hfront : Apart word ([] ++ family.markers.start)
      ('\n' :: (trimmed published.text ++ ['\n'])) :=
    (isTag_of_mem hword).apart_right (isTag_start family)
  have hback : Apart word (family.markers.start ++
      '\n' :: (trimmed published.text ++ ['\n'])) (family.markers.stop ++ []) :=
    (isTag_of_mem hword).apart_left (isTag_stop family)
  rw [List.nil_append] at hfront
  rw [List.append_nil] at hback
  unfold wrapped
  rw [infix_append_iff_of_apart hback, infix_append_iff_of_apart hfront]
  simp only [not_infix_of_ne hword (start_mem_markerWords family) hstart,
    not_infix_of_ne hword (stop_mem_markerWords family) hstop,
    plain_wrapped_inner published hword, or_self, not_false_eq_true]

/-!
## The other pair's region
-/

/-- The marked region itself, markers included. -/
def regionText (markers : ManagedSectionMarkers) (inner : List Char) : List Char :=
  markers.start ++ inner ++ markers.stop

/-- Where the other pair's markers stand, so that this region can be rewritten
beside them: the other region ends before this one begins; or it begins before
this one and does not end within it, and if it ends after it the contents stay
as they are; or it begins later, and whatever this region hides of it shows
nothing else than the text after it. -/
def SparedAt (other own : ManagedSectionMarkers)
    (before inner after content : List Char) : Prop :=
  other.stop <:+: before ∨
  (other.start <:+: before ∧ ¬ other.stop <:+: regionText own inner ∧
    (other.stop <:+: after -> inner = '\n' :: (trimmed content ++ ['\n']))) ∨
  (¬ other.start <:+: before ∧ ¬ other.stop <:+: before ∧
    ((¬ other.stop <:+: regionText own inner ∧
        (other.start <:+: regionText own inner -> ¬ other.stop <:+: after)) ∨
      (other.stop <:+: regionText own inner ∧
        forall found, Carries other (regionText own inner) found <->
          Carries other after found)))

section Beside

variable {family : MarkerFamily}

theorem apart_before_region {word before inner after : List Char}
    (hword : word ∈ markerWords) :
    Apart word before (regionText family.markers inner ++ after) := by
  have h : Apart word before
      (family.markers.start ++ (inner ++ family.markers.stop ++ after)) :=
    (isTag_of_mem hword).apart_left (isTag_start family)
  simpa [regionText] using h

theorem apart_region_after {word left inner after : List Char}
    (hword : word ∈ markerWords) :
    Apart word (left ++ regionText family.markers inner) after := by
  have h : Apart word (left ++ (family.markers.start ++ inner) ++ family.markers.stop) after :=
    (isTag_of_mem hword).apart_right (isTag_stop family)
  simpa [regionText] using h

theorem stop_infix_regionText (inner : List Char) :
    family.markers.stop <:+: regionText family.markers inner :=
  ⟨family.markers.start ++ inner, [], by simp [regionText]⟩

/-- What stands in a region before some other marker does not hold the end marker. -/
theorem stop_not_infix_of_region_split {before inner after more tail word : List Char}
    (hregion : Encloses family.markers.start family.markers.stop
      (before ++ regionText family.markers inner ++ after) before inner after)
    (hword : word ∈ markerWords)
    (hsplit : regionText family.markers inner = more ++ word ++ tail) :
    ¬ family.markers.stop <:+: more := by
  intro hinfix
  rcases (isTag_stop family).exists_first hinfix with ⟨front, back, rfl, hfront⟩
  have hinner : ¬ family.markers.stop <:+: family.markers.start ++ inner := by
    intro h
    apply hregion.closing_before
    rw [List.append_assoc]
    exact List.infix_append_of_infix_right h
  have heq : (family.markers.start ++ inner) ++ family.markers.stop ++ [] =
      front ++ family.markers.stop ++ (back ++ word ++ tail) := by
    rw [List.append_nil, ← List.append_assoc, ← List.append_assoc]
    exact hsplit
  have htail := ((isTag_stop family).first_unique hinner hfront heq).2
  have hnil : word = [] := by
    have := List.append_eq_nil_iff.mp htail.symm
    exact (List.append_eq_nil_iff.mp this.1).2
  exact (isTag_of_mem hword).ne_nil hnil

/-- Contents that hold the end marker and contents that do not are different. -/
theorem trimmed_ne_of_stop {left right : List Char}
    (hleft : ¬ family.markers.stop <:+: left) (hright : family.markers.stop <:+: right) :
    trimmed left ≠ trimmed right := by
  intro h
  apply hleft
  have hmem := stop_mem_markerWords family
  rw [← infix_trimmed_iff hmem, h, infix_trimmed_iff hmem]
  exact hright

theorem region_eq_of_trimmed_eq {rest inner inner' more : List Char}
    (h : trimmed (rest ++ (regionText family.markers inner ++ more)) =
      trimmed (rest ++ (regionText family.markers inner' ++ more))) : inner = inner' := by
  rcases (isTag_start family).shape with ⟨startInner, hstart⟩
  rcases (isTag_stop family).shape with ⟨stopInner, hstop⟩
  have hshape : forall part, regionText family.markers part =
      '<' :: ((startInner ++ ['>'] ++ part ++ '<' :: stopInner) ++ ['>']) := by
    intro part
    simp [regionText, hstart, hstop]
  rw [← List.append_assoc, ← List.append_assoc, hshape, hshape, trimmed, trimmed,
    trimChars_append (by decide) (by decide), trimChars_append (by decide) (by decide)] at h
  simpa using h

/-- Contents that lost a marker are shorter. -/
theorem trimmed_ne_of_marker {word left right rest : List Char} (hword : word ∈ markerWords) :
    trimmed (rest ++ (left ++ word ++ right)) ≠ trimmed right := by
  intro h
  have hfilter := congrArg (List.filter (fun c => !isSpace c)) h
  rw [trimmed, trimmed, filter_trimChars, filter_trimChars] at hfilter
  have hlength := congrArg List.length hfilter
  rcases (isTag_of_mem hword).shape with ⟨inner, rfl⟩
  have hvisible : (!isSpace '<') = true := by decide
  simp only [List.filter_append, List.length_append, List.filter_cons, hvisible, if_true,
    List.length_cons] at hlength
  omega

/-- A region that the other pair opened in front runs over this one. -/
theorem carries_of_start_before {front rest inner after : List Char}
    (hfront : ¬ family.other.markers.start <:+: front)
    (hbefore : ¬ family.other.markers.stop <:+: front ++ family.other.markers.start ++ rest)
    (hinner : ¬ family.other.markers.stop <:+: regionText family.markers inner)
    (found : List Char) :
    Carries family.other.markers (front ++ family.other.markers.start ++ rest ++
        regionText family.markers inner ++ after) found <->
      exists more tail, after = more ++ family.other.markers.stop ++ tail ∧
        ¬ family.other.markers.stop <:+: more ∧
        trimmed (rest ++ (regionText family.markers inner ++ more)) = found := by
  have hmem := stop_mem_markerWords family.other
  have hjoint : Apart family.other.markers.stop (front ++ family.other.markers.start ++ rest)
      (regionText family.markers inner ++ []) := apart_before_region hmem
  rw [List.append_nil] at hjoint
  have hall : ¬ family.other.markers.stop <:+:
      front ++ family.other.markers.start ++ (rest ++ regionText family.markers inner) := by
    rw [← List.append_assoc, infix_append_iff_of_apart hjoint]
    simp only [hbefore, hinner, or_self, not_false_eq_true]
  have hapart : Apart family.other.markers.stop
      (front ++ family.other.markers.start ++ (rest ++ regionText family.markers inner))
      after := by
    rw [← List.append_assoc]
    exact apart_region_after hmem
  have hiff := carries_append_of_start_left hapart hfront hall found
  simpa only [List.append_assoc] using hiff

theorem plain_fresh (published : PlainSection) :
    ¬ family.other.markers.start <:+: wrapped family.markers published.text ∧
      ¬ family.other.markers.stop <:+: wrapped family.markers published.text := by
  constructor
  · exact not_infix_wrapped published (start_mem_markerWords family.other)
      (start_ne_other family).symm (start_ne_stop family.other family)
  · exact not_infix_wrapped published (stop_mem_markerWords family.other)
      (start_ne_stop family family.other).symm (stop_ne_other family).symm

theorem wrapped_eq (markers : ManagedSectionMarkers) (content : List Char) :
    wrapped markers content =
      regionText markers ('\n' :: (trimmed content ++ ['\n'])) :=
  rfl

/-- A region that the other pair opened in front and closes within this one
holds no end marker of this pair. -/
theorem exists_found_of_stop_inside {front rest inner after : List Char}
    (hregion : Encloses family.markers.start family.markers.stop
      (front ++ family.other.markers.start ++ rest ++ regionText family.markers inner ++ after)
      (front ++ family.other.markers.start ++ rest) inner after)
    (hfront : ¬ family.other.markers.start <:+: front)
    (hstop : ¬ family.other.markers.stop <:+: front ++ family.other.markers.start ++ rest)
    (hinside : family.other.markers.stop <:+: regionText family.markers inner) :
    exists hidden, ¬ family.markers.stop <:+: hidden ∧
      Carries family.other.markers (front ++ family.other.markers.start ++ rest ++
        regionText family.markers inner ++ after) (trimmed hidden) := by
  have hmem := stop_mem_markerWords family.other
  rcases (isTag_stop family.other).exists_first hinside with ⟨more, tail, hsplit, hmore⟩
  exists rest ++ more
  constructor
  · have hinit : more <+: regionText family.markers inner ++ after :=
      ⟨family.other.markers.stop ++ tail ++ after, by rw [hsplit]; simp⟩
    have hsuffix : rest <:+ front ++ family.other.markers.start ++ rest :=
      List.suffix_append _ _
    have hjoint : Apart family.markers.stop rest more :=
      (apart_before_region (stop_mem_markerWords family)).mono hsuffix hinit
    have hrest : ¬ family.markers.stop <:+: rest := by
      intro h
      apply hregion.closing_before
      rw [List.append_assoc _ _ inner]
      exact List.infix_append_of_infix_left (h.trans hsuffix.isInfix)
    rw [infix_append_iff_of_apart hjoint]
    simp only [hrest, stop_not_infix_of_region_split hregion hmem hsplit, or_self,
      not_false_eq_true]
  · rw [List.append_assoc _ _ after]
    apply (carries_append_of_start_left (apart_before_region hmem) hfront hstop _).mpr
    exact ⟨more, tail ++ after, by rw [hsplit]; simp, hmore, rfl⟩

/-- The other region begins in front of this one and is still open there. -/
theorem unchanged_iff_of_open_before (published : PlainSection)
    {before inner after : List Char}
    (hregion : Encloses family.markers.start family.markers.stop
      (before ++ regionText family.markers inner ++ after) before inner after)
    (hstart : family.other.markers.start <:+: before)
    (hstop : ¬ family.other.markers.stop <:+: before) :
    (forall found, Carries family.other.markers
        (before ++ wrapped family.markers published.text ++ after) found <->
      Carries family.other.markers (before ++ regionText family.markers inner ++ after) found)
    <-> (¬ family.other.markers.stop <:+: regionText family.markers inner ∧
      (family.other.markers.stop <:+: after ->
        inner = '\n' :: (trimmed published.text ++ ['\n']))) := by
  rcases (isTag_start family.other).exists_first hstart with ⟨front, rest, rfl, hfront⟩
  have hplain := (@plain_fresh family published).2
  simp only [wrapped_eq] at hplain ⊢
  have hfresh := fun found => @carries_of_start_before family front rest _ after hfront hstop
    hplain found
  constructor
  · intro hsame
    have hclosed : ¬ family.other.markers.stop <:+: regionText family.markers inner := by
      intro hinside
      -- the old text closes the other region within this one, the new text does not
      rcases exists_found_of_stop_inside hregion hfront hstop hinside with
        ⟨hidden, hnone, hold⟩
      rcases (hfresh _).mp ((hsame _).mpr hold) with ⟨more, tail, _, _, hcontent⟩
      apply trimmed_ne_of_stop hnone _ hcontent.symm
      apply List.infix_append_of_infix_right
      apply List.infix_append_of_infix_left
      exact stop_infix_regionText _
    constructor
    · exact hclosed
    · intro hafter
      rcases (isTag_stop family.other).exists_first hafter with ⟨more, tail, hsplit, hmore⟩
      have hold := (hsame _).mpr
        ((carries_of_start_before hfront hstop hclosed _).mpr ⟨more, tail, hsplit, hmore, rfl⟩)
      rcases (hfresh _).mp hold with ⟨more', tail', hsplit', hmore', hcontent⟩
      have hsameMore : more' = more :=
        ((isTag_stop family.other).first_unique hmore' hmore (hsplit'.symm.trans hsplit)).1
      rw [hsameMore] at hcontent
      exact (region_eq_of_trimmed_eq hcontent).symm
  · rintro ⟨hclosed, hkept⟩ found
    rw [hfresh, carries_of_start_before hfront hstop hclosed]
    by_cases hafter : family.other.markers.stop <:+: after
    · rw [hkept hafter]
    · constructor
      · rintro ⟨more, tail, hsplit, _⟩
        exact absurd ⟨more, tail, hsplit.symm⟩ hafter
      · rintro ⟨more, tail, hsplit, _⟩
        exact absurd ⟨more, tail, hsplit.symm⟩ hafter

/-- A text that opens a region and does not close it hides what follows, up to
the end marker there. -/
theorem carries_iff_append_of_start_left {left right : List Char}
    (hapart : Apart family.markers.stop left right)
    (hstart : family.markers.start <:+: left) (hstop : ¬ family.markers.stop <:+: left) :
    (forall found, Carries family.markers right found <->
      Carries family.markers (left ++ right) found) <-> ¬ family.markers.stop <:+: right := by
  rcases (isTag_start family).exists_first hstart with ⟨front, rest, rfl, hfront⟩
  have hiff := carries_append_of_start_left hapart hfront hstop
  constructor
  · intro hsame hright
    rcases (isTag_stop family).exists_first hright with ⟨more, tail, hsplit, hmore⟩
    rcases (hsame _).mpr ((hiff _).mpr ⟨more, tail, hsplit, hmore, rfl⟩) with
      ⟨before, inner, after, hregion, hcontent⟩
    have heq : (before ++ family.markers.start ++ inner) ++ family.markers.stop ++ after =
        more ++ family.markers.stop ++ tail := by
      rw [← hregion.text_eq, hsplit]
    have hmoreEq :=
      ((isTag_stop family).first_unique hregion.closing_before hmore heq).1
    rw [← hmoreEq] at hcontent
    exact trimmed_ne_of_marker (start_mem_markerWords family) hcontent.symm
  · intro hright found
    have hall : ¬ family.markers.stop <:+: front ++ family.markers.start ++ rest ++ right := by
      rw [infix_append_iff_of_apart hapart]
      simp only [hstop, hright, or_self, not_false_eq_true]
    exact iff_of_false (not_carries_of_not_stop hright found)
      (not_carries_of_not_stop hall found)

/-- The other region begins neither in front of this one nor ends there. -/
theorem unchanged_iff_of_plain_before (published : PlainSection)
    {before inner after : List Char}
    (hstart : ¬ family.other.markers.start <:+: before)
    (hstop : ¬ family.other.markers.stop <:+: before) :
    (forall found, Carries family.other.markers
        (before ++ wrapped family.markers published.text ++ after) found <->
      Carries family.other.markers (before ++ regionText family.markers inner ++ after) found)
    <-> ((¬ family.other.markers.stop <:+: regionText family.markers inner ∧
        (family.other.markers.start <:+: regionText family.markers inner ->
          ¬ family.other.markers.stop <:+: after)) ∨
      (family.other.markers.stop <:+: regionText family.markers inner ∧
        forall found, Carries family.other.markers (regionText family.markers inner) found <->
          Carries family.other.markers after found)) := by
  have hplain := @plain_fresh family published
  simp only [wrapped_eq] at hplain ⊢
  have hmove : forall part found, Carries family.other.markers
        (before ++ regionText family.markers part ++ after) found <->
      Carries family.other.markers (regionText family.markers part ++ after) found := by
    intro part found
    rw [List.append_assoc]
    exact carries_append_of_plain_left (fun word hword => apart_before_region hword)
      hstart hstop found
  have hjoint : forall part word, word ∈ markerWords ->
      Apart word (regionText family.markers part) after := by
    intro part word hword
    have h := @apart_region_after family word [] part after hword
    rwa [List.nil_append] at h
  have hfresh := carries_append_of_plain_left (hjoint _) hplain.1 hplain.2
  simp only [hmove, hfresh]
  by_cases hinside : family.other.markers.stop <:+: regionText family.markers inner
  · simp only [carries_append_of_stop_left hinside, hinside, not_true_eq_false, false_and,
      true_and, false_or]
    exact forall_congr' (fun found => Iff.comm)
  · simp only [hinside, not_false_eq_true, true_and, false_and, or_false]
    by_cases hopen : family.other.markers.start <:+: regionText family.markers inner
    · simp only [hopen, forall_const]
      exact carries_iff_append_of_start_left
        (hjoint inner _ (stop_mem_markerWords family.other)) hopen hinside
    · simp only [carries_append_of_plain_left (hjoint inner) hopen hinside, hopen]
      simp

theorem unchanged_iff_sparedAt (published : PlainSection) {before inner after : List Char}
    (hregion : Encloses family.markers.start family.markers.stop
      (before ++ regionText family.markers inner ++ after) before inner after) :
    (forall found, Carries family.other.markers
        (before ++ wrapped family.markers published.text ++ after) found <->
      Carries family.other.markers (before ++ regionText family.markers inner ++ after) found)
    <-> SparedAt family.other.markers family.markers before inner after published.text := by
  unfold SparedAt
  by_cases hstop : family.other.markers.stop <:+: before
  · simp only [List.append_assoc before, carries_append_of_stop_left hstop, hstop,
      implies_true, true_or]
  · by_cases hstart : family.other.markers.start <:+: before
    · rw [unchanged_iff_of_open_before published hregion hstart hstop]
      simp only [hstop, hstart, true_and, false_or, not_true_eq_false, false_and, or_false]
    · rw [unchanged_iff_of_plain_before published hstart hstop]
      simp only [hstop, hstart, false_and, false_or, not_false_eq_true, true_and]

/-- A fresh region is appended behind every region of the other pair. -/
theorem unchanged_of_append (published : PlainSection) (existing found : List Char) :
    Carries family.other.markers
        (appendPrefix existing ++ wrapped family.markers published.text ++ ['\n']) found <->
      Carries family.other.markers existing found := by
  have hmem := stop_mem_markerWords family.other
  have hplain := (@plain_fresh family published).2
  have hjoint : Apart family.other.markers.stop (wrapped family.markers published.text)
      ['\n'] :=
    apart_of_last_not_mem hmem (by decide)
  have hright : ¬ family.other.markers.stop <:+:
      wrapped family.markers published.text ++ ['\n'] := by
    rw [infix_append_iff_of_apart hjoint]
    simp only [hplain, not_infix_of_first_not_mem hmem (by decide : '<' ∉ ['\n']), or_self,
      not_false_eq_true]
  rw [List.append_assoc, wrapped_eq] at *
  rw [carries_append_of_plain_right (apart_before_region hmem) hright,
    carries_appendPrefix_iff]

end Beside

/-!
## What publishing guarantees
-/

/-- Publishing one section after another on a description. -/
structure Manages (body : Option (List Char)) (first second : PlainSection)
    (family : MarkerFamily) : Prop where
  reads_back :
    readManagedSection (some (spliceManagedSection body first.text family.markers))
      family.markers = some (trimmed first.text)
  replaces :
    spliceManagedSection (some (spliceManagedSection body first.text family.markers))
      second.text family.markers = spliceManagedSection body second.text family.markers
  keeps_other :
    readManagedSection (some (spliceManagedSection body first.text family.markers))
      family.other.markers = readManagedSection body family.other.markers

/-- The description has a region of this pair, or none of its markers. -/
def WellMarked (family : MarkerFamily) (existing : List Char) : Prop :=
  (exists before inner after,
    Encloses family.markers.start family.markers.stop existing before inner after) ∨
  (¬ family.markers.start <:+: existing ∧ ¬ family.markers.stop <:+: existing)

def SparesOther (family : MarkerFamily) (existing content : List Char) : Prop :=
  forall before inner after,
    Encloses family.markers.start family.markers.stop existing before inner after ->
      SparedAt family.other.markers family.markers before inner after content

section Publish

variable {family : MarkerFamily} {body : Option (List Char)}

theorem read_eq_read_iff (family : MarkerFamily) (body body' : Option (List Char)) :
    readManagedSection body family.markers = readManagedSection body' family.markers <->
      forall found, Carries family.markers (body.getD []) found <->
        Carries family.markers (body'.getD []) found := by
  constructor
  · intro h found
    rw [← read_eq_some_iff, ← read_eq_some_iff, h]
  · intro h
    apply Option.ext
    intro found
    rw [read_eq_some_iff, read_eq_some_iff]
    exact h found

theorem read_wrapped (published : PlainSection) {before : List Char}
    (hstart : ¬ family.markers.start <:+: before)
    (hstop : ¬ family.markers.stop <:+: before) (after : List Char) :
    readManagedSection (some (before ++ wrapped family.markers published.text ++ after))
      family.markers = some (trimmed published.text) := by
  apply (read_eq_some_iff _ _ _).mpr
  exact ⟨before, _, after, encloses_wrapped published hstart hstop after,
    trimmed_wrapped_inner published.text⟩

theorem splice_wrapped (first second : PlainSection) {before : List Char}
    (hstart : ¬ family.markers.start <:+: before)
    (hstop : ¬ family.markers.stop <:+: before) (after : List Char) :
    spliceManagedSection (some (before ++ wrapped family.markers first.text ++ after))
      second.text family.markers = before ++ wrapped family.markers second.text ++ after :=
  splice_of_region second.text (encloses_wrapped first hstart hstop after)

/-- A stray marker makes the next search find something else than what was written. -/
theorem not_read_of_stray (published : PlainSection) {existing : List Char}
    (hnone : forall found, ¬ Carries family.markers existing found)
    (hstray : family.markers.start <:+: existing ∨ family.markers.stop <:+: existing) :
    ¬ Carries family.markers
      (appendPrefix existing ++ wrapped family.markers published.text ++ ['\n'])
      (trimmed published.text) := by
  have hstartMem := start_mem_markerWords family
  have hstopMem := stop_mem_markerWords family
  rw [wrapped_eq, List.append_assoc]
  by_cases hstop : family.markers.stop <:+: appendPrefix existing
  · rw [carries_append_of_stop_left hstop, carries_appendPrefix_iff]
    exact hnone _
  · have hstart : family.markers.start <:+: appendPrefix existing := by
      rw [infix_appendPrefix_iff hstartMem]
      cases hstray with
      | inl h => exact h
      | inr h => exact absurd ((infix_appendPrefix_iff hstopMem).mpr h) hstop
    rcases (isTag_start family).exists_first hstart with ⟨front, rest, hinit, hfront⟩
    rw [hinit] at hstop ⊢
    rw [carries_append_of_start_left (apart_before_region hstopMem) hfront hstop]
    rintro ⟨more, tail, hsplit, hmore, hcontent⟩
    -- the region found starts at the stray marker and holds the fresh start marker
    have hfresh : more = family.markers.start ++
        '\n' :: (trimmed published.text ++ ['\n']) := by
      have hempty : forall word, word ∈ markerWords -> ¬ word <:+: ([] : List Char) :=
        fun word hword => not_infix_of_first_not_mem hword List.not_mem_nil
      have hregion := encloses_wrapped published (hempty _ hstartMem) (hempty _ hstopMem)
        ['\n']
      have heq := hregion.text_eq
      rw [List.nil_append] at heq
      have hfirst := (isTag_stop family).first_unique hmore hregion.closing_before
        (hsplit.symm.trans heq)
      simpa using hfirst.1
    apply published.plain _ hstartMem
    rw [← infix_trimmed_iff hstartMem, ← hcontent, infix_trimmed_iff hstartMem, hfresh]
    exact ⟨rest, _, List.append_assoc _ _ _⟩

theorem manages_of_region_iff (first second : PlainSection)
    {before inner after : List Char}
    (hregion : Encloses family.markers.start family.markers.stop (body.getD []) before inner
      after) :
    Manages body first second family <->
      SparedAt family.other.markers family.markers before inner after first.text := by
  have hstop : ¬ family.markers.stop <:+: before := by
    intro h
    apply hregion.closing_before
    rw [List.append_assoc]
    exact List.infix_append_of_infix_left h
  have hbody : body.getD [] = before ++ regionText family.markers inner ++ after := by
    rw [hregion.text_eq]
    simp [regionText]
  have hkept : readManagedSection (some (spliceManagedSection body first.text family.markers))
        family.other.markers = readManagedSection body family.other.markers <->
      SparedAt family.other.markers family.markers before inner after first.text := by
    rw [read_eq_read_iff, splice_of_region first.text hregion, hbody]
    exact unchanged_iff_sparedAt first (hbody ▸ hregion)
  constructor
  · intro h
    exact hkept.mp h.keeps_other
  · intro h
    constructor
    · rw [splice_of_region first.text hregion]
      exact read_wrapped first hregion.opening_before hstop after
    · rw [splice_of_region first.text hregion, splice_of_region second.text hregion]
      exact splice_wrapped first second hregion.opening_before hstop after
    · exact hkept.mpr h

theorem manages_of_no_marker (first second : PlainSection)
    (hstart : ¬ family.markers.start <:+: body.getD [])
    (hstop : ¬ family.markers.stop <:+: body.getD []) :
    Manages body first second family := by
  have hnone : forall found, ¬ Carries family.markers (body.getD []) found :=
    not_carries_of_not_stop hstop
  have hstart' : ¬ family.markers.start <:+: appendPrefix (body.getD []) := by
    rwa [infix_appendPrefix_iff (start_mem_markerWords family)]
  have hstop' : ¬ family.markers.stop <:+: appendPrefix (body.getD []) := by
    rwa [infix_appendPrefix_iff (stop_mem_markerWords family)]
  constructor
  · rw [splice_of_no_region first.text hnone]
    exact read_wrapped first hstart' hstop' ['\n']
  · rw [splice_of_no_region first.text hnone, splice_of_no_region second.text hnone]
    exact splice_wrapped first second hstart' hstop' ['\n']
  · rw [read_eq_read_iff, splice_of_no_region first.text hnone]
    exact unchanged_of_append first (body.getD [])

/-- Publishing reads back, replaces its own region and keeps the other one
exactly on the descriptions that are well marked and spare the other pair. -/
theorem manages_iff (body : Option (List Char)) (first second : PlainSection)
    (family : MarkerFamily) :
    Manages body first second family <->
      WellMarked family (body.getD []) ∧
        SparesOther family (body.getD []) first.text := by
  by_cases hregion : exists before inner after, Encloses family.markers.start
      family.markers.stop (body.getD []) before inner after
  · rcases hregion with ⟨before, inner, after, hregion⟩
    rw [manages_of_region_iff first second hregion]
    constructor
    · intro h
      constructor
      · exact Or.inl ⟨before, inner, after, hregion⟩
      · intro before' inner' after' hregion'
        have hsame := encloses_unique (isTag_start family) (isTag_stop family) hregion
          hregion'
        rcases hsame with ⟨rfl, rfl, rfl⟩
        exact h
    · intro h
      exact h.2 before inner after hregion
  · have hnone : forall found, ¬ Carries family.markers (body.getD []) found := by
      rintro found ⟨before, inner, after, h, _⟩
      exact hregion ⟨before, inner, after, h⟩
    constructor
    · intro h
      constructor
      · apply Or.inr
        have hread := h.reads_back
        rw [read_eq_some_iff, splice_of_no_region first.text hnone] at hread
        constructor
        · intro hstart
          exact not_read_of_stray first hnone (Or.inl hstart) hread
        · intro hstop
          exact not_read_of_stray first hnone (Or.inr hstop) hread
      · intro before inner after h
        exact absurd ⟨before, inner, after, h⟩ hregion
    · intro h
      cases h.1 with
      | inl hfound => exact absurd hfound hregion
      | inr hplain => exact manages_of_no_marker first second hplain.1 hplain.2

def okSection : PlainSection where
  text := "ok".toList
  plain := fun _ hword => not_infix_of_first_not_mem hword (by decide)

/-- A start marker without an end: the section does not read back, and the next
splice deletes the text behind the stray marker. -/
theorem not_manages_stray_start :
    ¬ Manages (some (prReportMarkers.start ++ " kept".toList)) okSection okSection
        MarkerFamily.report ∧
      spliceManagedSection (some (spliceManagedSection
          (some (prReportMarkers.start ++ " kept".toList)) okSection.text prReportMarkers))
        okSection.text prReportMarkers = wrapped prReportMarkers okSection.text ++ ['\n'] := by
  constructor
  · intro h
    exact absurd h.reads_back (by decide +kernel)
  · decide +kernel

end Publish

end Publishing
end CatFactory
