import CatFactory.Foundation.CodeUnits
import CatFactory.Foundation.Framing

/-!
# Reading an agent's output within bounds

The harness reads a child's output as chunks of UTF-16 code units.  One reader
frames it into records and drops those over a cap; one keeps the tail of it.
Neither holds more than its bound allows, and neither depends on the chunks.
-/

namespace CatFactory
namespace Harness

open Foundation

variable {maxLineChars : Nat}

/-- `'\n'` -/
def LF : Nat := 10

/-- `text.trim()` -/
def trimmedUnits (text : List Nat) : List Nat :=
  trimEnd (text.dropWhile isSpaceUnit)

/-!
## The tail of a stream
-/

/-- `text.slice(-count)`; `-0` is `0`, from where the slice is the whole text. -/
def sliceLast (count : Nat) (text : List Nat) : List Nat :=
  if count = 0 then text else text.drop (text.length - count)

structure BoundedTail where
  text : List Nat
  total : Nat
deriving DecidableEq

def BoundedTail.fresh : BoundedTail :=
  { text := []
    total := 0 }

def BoundedTail.push (maxChars : Nat) (tail : BoundedTail) (chunk : List Nat) : BoundedTail :=
  let text := tail.text ++ chunk
  { text := if maxChars * 2 < text.length then sliceLast maxChars text else text
    total := tail.total + chunk.length }

def BoundedTail.toString (maxChars : Nat) (tail : BoundedTail) : List Nat :=
  if maxChars < tail.text.length then sliceLast maxChars tail.text else tail.text

def BoundedTail.droppedChars (maxChars : Nat) (tail : BoundedTail) : Nat :=
  tail.total - (tail.toString maxChars).length

/-!
## The records of a stream
-/

/-- The reader; `lines` logs the calls of `onLine`, each line with its `final` flag. -/
structure JsonlLineReader where
  buffer : List Nat
  skipping : Bool
  dropped : Nat
  lines : List (List Nat × Bool)
deriving DecidableEq

namespace JsonlLineReader

def fresh : JsonlLineReader :=
  { buffer := []
    skipping := false
    dropped := 0
    lines := [] }

/-- The newline of a record, `part` being what the chunk holds of it. -/
def endRecord (maxLineChars : Nat) (reader : JsonlLineReader) (part : List Nat) :
    JsonlLineReader :=
  if reader.skipping then
    { reader with skipping := false }
  else
    let raw := reader.buffer ++ part
    if maxLineChars < raw.length then
      { reader with
        buffer := []
        dropped := reader.dropped + 1 }
    else
      { reader with
        buffer := []
        lines := reader.lines ++ [(trimmedUnits raw, false)] }

/-- What is left of a chunk after its last newline. -/
def keepRest (maxLineChars : Nat) (reader : JsonlLineReader) (rest : List Nat) :
    JsonlLineReader :=
  if reader.skipping then
    reader
  else
    let buffer := reader.buffer ++ rest
    if maxLineChars < buffer.length then
      { reader with
        buffer := []
        dropped := reader.dropped + 1
        skipping := true }
    else
      { reader with buffer := buffer }

/-- `push`; each turn takes the chunk up to its next newline. -/
def push (maxLineChars : Nat) (reader : JsonlLineReader) (rest : List Nat) : JsonlLineReader :=
  match h : rest.idxOf? LF with
  | none => reader.keepRest maxLineChars rest
  | some nl =>
      (reader.endRecord maxLineChars (rest.take nl)).push maxLineChars (rest.drop (nl + 1))
termination_by rest.length
decreasing_by
  rcases List.idxOf?_eq_some_iff.mp h with ⟨hlt, _⟩
  rw [List.length_drop]
  omega

def flush (reader : JsonlLineReader) : JsonlLineReader :=
  let line := trimmedUnits reader.buffer
  { reader with
    buffer := []
    lines := if line ≠ [] ∧ reader.skipping = false then reader.lines ++ [(line, true)]
      else reader.lines }

/-- `droppedLines` -/
def droppedLines (reader : JsonlLineReader) : Nat :=
  reader.dropped

end JsonlLineReader

/-!
## One turn of the reader
-/

namespace JsonlLineReader

theorem push_of_not_mem {reader : JsonlLineReader} {rest : List Nat}
    (h : LF ∉ rest) : reader.push maxLineChars rest = reader.keepRest maxLineChars rest := by
  rw [push]
  split
  · rfl
  · rename_i nl hnl
    have hnone := List.idxOf?_eq_none_iff.mpr h
    rw [hnone] at hnl
    cases hnl

theorem idxOf?_append_LF {part rest : List Nat} (h : LF ∉ part) :
    (part ++ LF :: rest).idxOf? LF = some part.length := by
  induction part with
  | nil => simp [List.idxOf?_cons]
  | cons unit part ih =>
      have hunit : unit ≠ LF := fun heq => h (heq ▸ List.mem_cons_self)
      have hpart : LF ∉ part := fun hmem => h (List.mem_cons_of_mem unit hmem)
      rw [List.cons_append, List.idxOf?_cons, ih hpart]
      simp [hunit]

theorem push_append_LF {reader : JsonlLineReader} {part rest : List Nat} (h : LF ∉ part) :
    reader.push maxLineChars (part ++ LF :: rest) =
      (reader.endRecord maxLineChars part).push maxLineChars rest := by
  have hindex := @idxOf?_append_LF part rest h
  rw [push]
  split
  · rename_i hnone
    rw [hindex] at hnone
    cases hnone
  · rename_i nl hnl
    rw [hindex] at hnl
    cases hnl
    simp

/-!
## The reader after any text

Its state is read off the text pushed so far, whatever the chunks were.
-/

/-- The records a cap keeps, as `onLine` gets them. -/
def keptLines (maxLineChars : Nat) (text : List Nat) : List (List Nat × Bool) :=
  ((terminated LF text).filter fun record => record.length ≤ maxLineChars).map
    fun record => (trimmedUnits record, false)

/-- The terminated records over the cap. -/
def overlongRecords (maxLineChars : Nat) (text : List Nat) : List (List Nat) :=
  (terminated LF text).filter fun record => maxLineChars < record.length

def after (maxLineChars : Nat) (text : List Nat) : JsonlLineReader :=
  if maxLineChars < (unterminated LF text).length then
    { buffer := []
      skipping := true
      dropped := (overlongRecords maxLineChars text).length + 1
      lines := keptLines maxLineChars text }
  else
    { buffer := unterminated LF text
      skipping := false
      dropped := (overlongRecords maxLineChars text).length
      lines := keptLines maxLineChars text }

theorem after_nil (maxLineChars : Nat) : after maxLineChars [] = fresh := by
  simp [after, fresh, keptLines, overlongRecords, terminated, unterminated]

theorem after_of_lt {text : List Nat} (h : maxLineChars < (unterminated LF text).length) :
    after maxLineChars text =
      { buffer := []
        skipping := true
        dropped := (overlongRecords maxLineChars text).length + 1
        lines := keptLines maxLineChars text } :=
  if_pos h

theorem after_of_le {text : List Nat} (h : (unterminated LF text).length ≤ maxLineChars) :
    after maxLineChars text =
      { buffer := unterminated LF text
        skipping := false
        dropped := (overlongRecords maxLineChars text).length
        lines := keptLines maxLineChars text } :=
  if_neg (Nat.not_lt.mpr h)

theorem keptLines_of_terminated {text text' : List Nat}
    (h : terminated LF text = terminated LF text') :
    keptLines maxLineChars text = keptLines maxLineChars text' ∧
      overlongRecords maxLineChars text = overlongRecords maxLineChars text' := by
  unfold keptLines overlongRecords
  rw [h]
  exact ⟨rfl, rfl⟩

/-- A record more is dropped when it is over the cap, and kept when it is not. -/
theorem keptLines_of_record {text text' record : List Nat}
    (h : terminated LF text' = terminated LF text ++ [record]) :
    (maxLineChars < record.length ->
      keptLines maxLineChars text' = keptLines maxLineChars text ∧
        overlongRecords maxLineChars text' = overlongRecords maxLineChars text ++ [record]) ∧
    (record.length ≤ maxLineChars ->
      keptLines maxLineChars text' =
          keptLines maxLineChars text ++ [(trimmedUnits record, false)] ∧
        overlongRecords maxLineChars text' = overlongRecords maxLineChars text) := by
  unfold keptLines overlongRecords
  rw [h]
  constructor
  · intro hlong
    simp [hlong]
  · intro hfits
    simp [hfits]

theorem keepRest_after (maxLineChars : Nat) (text : List Nat) {rest : List Nat}
    (h : LF ∉ rest) :
    (after maxLineChars text).keepRest maxLineChars rest = after maxLineChars (text ++ rest) := by
  rcases framed_append_of_not_mem text h with ⟨hrecords, hopen⟩
  rcases @keptLines_of_terminated maxLineChars _ _ hrecords with ⟨hkept, hlost⟩
  rcases Nat.lt_or_ge maxLineChars (unterminated LF text).length with hlong | hfits
  · have hlonger : maxLineChars < (unterminated LF (text ++ rest)).length := by
      rw [hopen, List.length_append]
      omega
    rw [after_of_lt hlong, after_of_lt hlonger, hkept, hlost]
    rfl
  · rcases Nat.lt_or_ge maxLineChars (unterminated LF (text ++ rest)).length with hlong | hfit
    · rw [after_of_le hfits, after_of_lt hlong, hkept, hlost]
      rw [hopen] at hlong
      simp only [keepRest, hlong, if_true, Bool.false_eq_true, if_false]
    · rw [after_of_le hfits, after_of_le hfit, hkept, hlost, hopen]
      rw [hopen] at hfit
      simp only [keepRest, Nat.not_lt.mpr hfit, if_false, Bool.false_eq_true]

/-- A newline settles the open record: kept, or counted as dropped. -/
theorem endRecord_after (maxLineChars : Nat) (text : List Nat) {part : List Nat}
    (h : LF ∉ part) :
    (after maxLineChars text).endRecord maxLineChars part =
      after maxLineChars (text ++ part ++ [LF]) := by
  rcases framed_append_of_not_mem text h with ⟨hrecords, hopen⟩
  have hended : terminated LF (text ++ part ++ [LF]) =
      terminated LF text ++ [unterminated LF text ++ part] := by
    rw [terminated_append_sep, hrecords, hopen, terminated_of_not_mem (List.not_mem_nil)]
  have hrest : unterminated LF (text ++ part ++ [LF]) = [] := by
    rw [unterminated_append_sep, unterminated_of_not_mem (List.not_mem_nil)]
  have hfits : (unterminated LF (text ++ part ++ [LF])).length ≤ maxLineChars := by
    rw [hrest]
    exact Nat.zero_le maxLineChars
  rcases @keptLines_of_record maxLineChars _ _ _ hended with ⟨hdrop, hkeep⟩
  rw [after_of_le hfits, hrest]
  rcases Nat.lt_or_ge maxLineChars (unterminated LF text).length with hlong | hshort
  · have hrecord : maxLineChars < (unterminated LF text ++ part).length := by
      rw [List.length_append]
      omega
    rw [after_of_lt hlong, (hdrop hrecord).left, (hdrop hrecord).right, List.length_append]
    rfl
  · rw [after_of_le hshort]
    rcases Nat.lt_or_ge maxLineChars (unterminated LF text ++ part).length with hrecord | hrecord
    · rw [(hdrop hrecord).left, (hdrop hrecord).right, List.length_append]
      simp only [endRecord, hrecord, if_true, Bool.false_eq_true, if_false]
      rfl
    · rw [(hkeep hrecord).left, (hkeep hrecord).right]
      simp only [endRecord, Nat.not_lt.mpr hrecord, Bool.false_eq_true, if_false]

/-- Pushing a chunk after a text is having pushed the two together. -/
theorem push_after (maxLineChars : Nat) (text chunk : List Nat) :
    (after maxLineChars text).push maxLineChars chunk = after maxLineChars (text ++ chunk) := by
  induction hlength : chunk.length using Nat.strongRecOn generalizing text chunk with
  | ind length ih =>
      by_cases hmem : LF ∈ chunk
      · rcases List.eq_append_cons_of_mem hmem with ⟨part, rest, hchunk, hpart⟩
        have hshorter : rest.length < length := by
          rw [← hlength, hchunk]
          simp
          omega
        rw [hchunk, push_append_LF hpart, endRecord_after maxLineChars text hpart,
          ih rest.length hshorter _ rest rfl]
        simp
      · rw [push_of_not_mem hmem, keepRest_after maxLineChars text hmem]

theorem foldl_push (maxLineChars : Nat) (chunks : List (List Nat)) :
    chunks.foldl (push maxLineChars) fresh = after maxLineChars chunks.flatten := by
  have hfrom : forall text, chunks.foldl (push maxLineChars) (after maxLineChars text) =
      after maxLineChars (text ++ chunks.flatten) := by
    induction chunks with
    | nil =>
        intro text
        simp
    | cons chunk chunks ih =>
        intro text
        rw [List.foldl_cons, push_after, ih, List.flatten_cons, List.append_assoc]
  rw [← after_nil maxLineChars]
  exact hfrom []

end JsonlLineReader

/-!
## The tail after any text
-/

/-- The last `count` units of a text, or all of it. -/
def lastOf (count : Nat) (text : List Nat) : List Nat :=
  text.drop (text.length - count)

theorem length_lastOf (count : Nat) (text : List Nat) :
    (lastOf count text).length = min count text.length := by
  simp only [lastOf, List.length_drop]
  omega

theorem lastOf_of_le {count : Nat} {text : List Nat} (h : text.length ≤ count) :
    lastOf count text = text := by
  rw [lastOf, Nat.sub_eq_zero_of_le h, List.drop_zero]

theorem sliceLast_eq {count : Nat} (hcount : 0 < count) (text : List Nat) :
    sliceLast count text = lastOf count text :=
  if_neg (Nat.ne_of_gt hcount)

/-- What a text's tail drops, the tail of a longer text drops too. -/
theorem lastOf_append (count : Nat) (text chunk : List Nat) :
    lastOf count (lastOf count text ++ chunk) = lastOf count (text ++ chunk) := by
  rcases Nat.lt_or_ge count text.length with hlong | hshort
  · have hcut : text.length - count ≤ text.length := Nat.sub_le _ _
    have hdrop : lastOf count text ++ chunk = (text ++ chunk).drop (text.length - count) :=
      (List.drop_append_of_le_length hcut).symm
    rw [hdrop, lastOf, lastOf, List.drop_drop]
    congr 1
    simp only [List.length_drop, List.length_append]
    omega
  · rw [lastOf_of_le hshort]

theorem lastOf_append_congr {count : Nat} {text text' : List Nat}
    (h : lastOf count text = lastOf count text') (chunk : List Nat) :
    lastOf count (text ++ chunk) = lastOf count (text' ++ chunk) := by
  rw [← lastOf_append count text, ← lastOf_append count text', h]

theorem lastOf_lastOf (count : Nat) (text : List Nat) :
    lastOf count (lastOf count text) = lastOf count text := by
  have happend := lastOf_append count text []
  rwa [List.append_nil, List.append_nil] at happend

namespace BoundedTail

/-- What a tail keeps of the text pushed so far. -/
structure Holds (maxChars : Nat) (text : List Nat) (tail : BoundedTail) : Prop where
  last : lastOf maxChars tail.text = lastOf maxChars text
  total : tail.total = text.length
  bounded : tail.text.length ≤ maxChars * 2

theorem holds_push {maxChars : Nat} (hpos : 0 < maxChars) {text : List Nat} {tail : BoundedTail}
    (h : tail.Holds maxChars text) (chunk : List Nat) :
    (tail.push maxChars chunk).Holds maxChars (text ++ chunk) := by
  have hlast := lastOf_append_congr h.last chunk
  have htotal : tail.total + chunk.length = (text ++ chunk).length := by
    rw [h.total, List.length_append]
  rcases Nat.lt_or_ge (maxChars * 2) (tail.text ++ chunk).length with hlong | hshort
  · have hslice : tail.push maxChars chunk =
        ⟨lastOf maxChars (tail.text ++ chunk), tail.total + chunk.length⟩ := by
      rw [push, if_pos hlong, sliceLast_eq hpos]
    rw [hslice]
    constructor
    · exact (lastOf_lastOf maxChars _).trans hlast
    · exact htotal
    · show (lastOf maxChars (tail.text ++ chunk)).length ≤ maxChars * 2
      rw [length_lastOf]
      omega
  · have hwhole : tail.push maxChars chunk =
        ⟨tail.text ++ chunk, tail.total + chunk.length⟩ := by
      rw [push, if_neg (Nat.not_lt.mpr hshort)]
    rw [hwhole]
    exact ⟨hlast, htotal, hshort⟩

theorem holds_foldl {maxChars : Nat} (hpos : 0 < maxChars) (chunks : List (List Nat)) :
    (chunks.foldl (push maxChars) fresh).Holds maxChars chunks.flatten := by
  have hfrom : forall text tail, tail.Holds maxChars text ->
      (chunks.foldl (push maxChars) tail).Holds maxChars (text ++ chunks.flatten) := by
    induction chunks with
    | nil =>
        intro text tail h
        rw [List.flatten_nil, List.append_nil]
        exact h
    | cons chunk chunks ih =>
        intro text tail h
        rw [List.flatten_cons, ← List.append_assoc]
        exact ih _ _ (holds_push hpos h chunk)
  exact hfrom [] fresh ⟨rfl, rfl, Nat.zero_le _⟩

theorem toString_of_holds {maxChars : Nat} (hpos : 0 < maxChars) {text : List Nat}
    {tail : BoundedTail} (h : tail.Holds maxChars text) :
    tail.toString maxChars = lastOf maxChars text := by
  rw [← h.last, toString]
  split
  · exact sliceLast_eq hpos tail.text
  · rename_i hshort
    exact (lastOf_of_le (Nat.not_lt.mp hshort)).symm

end BoundedTail

/-!
## The stream, however it was cut
-/

/-- What `onLine` is due for a whole stream: its kept records, then the rest it ends in. -/
def streamLines (maxLineChars : Nat) (stream : List Nat) : List (List Nat × Bool) :=
  let rest := unterminated LF stream
  JsonlLineReader.keptLines maxLineChars stream ++
    if trimmedUnits rest ≠ [] ∧ rest.length ≤ maxLineChars then [(trimmedUnits rest, true)] else []

theorem flush_after (maxLineChars : Nat) (stream : List Nat) :
    (JsonlLineReader.after maxLineChars stream).flush.lines = streamLines maxLineChars stream ∧
    (JsonlLineReader.after maxLineChars stream).flush.droppedLines =
      ((stream.splitOn LF).filter fun record => maxLineChars < record.length).length := by
  rw [← terminated_append_unterminated, List.filter_append, List.length_append]
  rcases Nat.lt_or_ge maxLineChars (unterminated LF stream).length with hlong | hfits
  · rw [JsonlLineReader.after_of_lt hlong]
    constructor
    · simp [JsonlLineReader.flush, streamLines, Nat.not_le.mpr hlong]
    · simp [JsonlLineReader.flush, JsonlLineReader.droppedLines, JsonlLineReader.overlongRecords,
        hlong]
  · rw [JsonlLineReader.after_of_le hfits]
    constructor
    · by_cases hline : trimmedUnits (unterminated LF stream) = []
      · simp [JsonlLineReader.flush, streamLines, hline]
      · simp [JsonlLineReader.flush, streamLines, hline, hfits]
    · simp [JsonlLineReader.flush, JsonlLineReader.droppedLines, JsonlLineReader.overlongRecords,
        Nat.not_lt.mpr hfits]

/--
However a stream is cut into chunks, its lines come out as if it were read
whole: the kept records trimmed and in order, the rest last.  Every record over
the cap counts as dropped once, and no push leaves more than the cap buffered.
The tail is the end of the stream.
-/
theorem stream_framing (chunks : List (List Nat)) :
    (forall maxLineChars,
      let reader := chunks.foldl (JsonlLineReader.push maxLineChars) JsonlLineReader.fresh
      reader.flush.lines = streamLines maxLineChars chunks.flatten ∧
      reader.flush.droppedLines =
        ((chunks.flatten.splitOn LF).filter fun record => maxLineChars < record.length).length ∧
      reader.buffer.length ≤ maxLineChars) ∧
    (forall maxChars, 0 < maxChars ->
      let tail := chunks.foldl (BoundedTail.push maxChars) BoundedTail.fresh
      tail.toString maxChars =
        chunks.flatten.drop (chunks.flatten.length - min maxChars chunks.flatten.length) ∧
      tail.droppedChars maxChars = chunks.flatten.length - (tail.toString maxChars).length) := by
  constructor
  · intro maxLineChars
    show _ ∧ _ ∧ _
    rw [JsonlLineReader.foldl_push]
    constructor
    · exact (flush_after maxLineChars chunks.flatten).left
    constructor
    · exact (flush_after maxLineChars chunks.flatten).right
    · rcases Nat.lt_or_ge maxLineChars (unterminated LF chunks.flatten).length with hlong | hfits
      · rw [JsonlLineReader.after_of_lt hlong]
        exact Nat.zero_le maxLineChars
      · rw [JsonlLineReader.after_of_le hfits]
        exact hfits
  · intro maxChars hpos
    have hholds := BoundedTail.holds_foldl hpos chunks
    constructor
    · rw [BoundedTail.toString_of_holds hpos hholds, lastOf]
      congr 1
      omega
    · rw [BoundedTail.droppedChars, hholds.total]

/-- A three-unit bound over two chunks. -/
theorem stream_framing_tail :
    ([[1, 2], [3, 4]].foldl (BoundedTail.push 3) BoundedTail.fresh).toString 3 = [2, 3, 4] :=
  ((stream_framing [[1, 2], [3, 4]]).right 3 (by decide)).left

end Harness
end CatFactory
