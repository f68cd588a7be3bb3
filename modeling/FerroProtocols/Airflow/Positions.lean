import Mathlib.Data.List.DropRight
import FerroProtocols.Airflow.LineIndex

/-! The lines and columns that are reported are those of the bytes before an offset. -/

namespace FerroProtocols.Airflow

/-- The whole lines of some bytes, up to the last newline. -/
def wholeLines (front : List UInt8) : List UInt8 := front.rdropWhile fun byte => decide (byte ≠ 10)

/-- Where the line that an offset is in begins. -/
def lineStart (source : String) (offset : Nat) : Nat := (wholeLines ((asBytes source).take offset)).length

/-- The newlines before an offset. -/
def newlinesBefore (source : String) (offset : Nat) : Nat := ((asBytes source).take offset).count 10

namespace LineIndex

/-- The offsets behind the newlines of some bytes, the first of which is at an offset. -/
private def startsFrom (offset : Nat) (bytes : List UInt8) : List Nat :=
  (bytes.zipIdx offset).filterMap fun entry => if entry.1 = 10 then some (entry.2 + 1) else none

private theorem startsFrom_append (offset : Nat) (first second : List UInt8) :
    startsFrom offset (first ++ second) = startsFrom offset first ++ startsFrom (offset + first.length) second := by
  rw [startsFrom, List.zipIdx_append, List.filterMap_append]
  rfl

private theorem lt_of_mem_startsFrom {offset start : Nat} {bytes : List UInt8}
    (mem : start ∈ startsFrom offset bytes) :
    offset < start := by
  obtain ⟨entry, place, begins⟩ := List.mem_filterMap.mp mem
  have behind := List.le_snd_of_mem_zipIdx place
  split at begins <;> simp only [Option.some.injEq, reduceCtorEq] at begins
  omega

private theorem lineStarts_eq {source : String} (short : (asBytes source).length < u32Modulus) :
    (new source).lineStarts = 0 :: startsFrom 0 (asBytes source) := by
  refine congrArg _ (List.filterMap_congr fun entry mem => ?_)
  have inside := List.snd_lt_of_mem_zipIdx mem
  have kept : toU32 (entry.2 + 1) = entry.2 + 1 := Nat.min_eq_left (by omega)
  rw [kept]

private theorem length_wholeLines_le (front : List UInt8) : (wholeLines front).length ≤ front.length :=
  List.IsPrefix.length_le ( List.rdropWhile_prefix _ front)

/-- The starts up to an offset end with the start of its line, and the others are before that. -/
private theorem starts_eq_append (front : List UInt8) : ∃ earlier, earlier.length = front.count 10 ∧
    0 :: startsFrom 0 front = earlier ++ [(wholeLines front).length] ∧
      ∀ start ∈ earlier, start < (wholeLines front).length := by
  induction front using List.reverseRecOn with
  | nil => exact ⟨[], rfl, rfl, nofun⟩
  | append_singleton front byte ih =>
    obtain ⟨earlier, counted, starts, below⟩ := ih
    rw [startsFrom_append, ← List.cons_append, starts]
    by_cases newline : byte = 10
    · -- What was the start of the last line is now one of the earlier starts.
      have whole : wholeLines (front ++ [byte]) = front ++ [byte] :=
        List.rdropWhile_concat_neg _ _ _ (by simp [newline])
      rw [whole]
      refine ⟨earlier ++ [(wholeLines front).length], by simp [counted, newline], by simp [startsFrom, newline], ?_⟩
      have bound := length_wholeLines_le front
      grind
    · have whole : wholeLines (front ++ [byte]) = wholeLines front :=
        List.rdropWhile_concat_pos _ _ _ (by simp [newline])
      rw [whole]
      exact ⟨earlier, by simp [counted, newline], by simp [startsFrom, newline], below⟩

/-- A search among increasing starts finds the last one that is not behind the offset. -/
private theorem lineOf_eq {index : LineIndex} {earlier later : List Nat} {last offset : Nat}
    (starts : index.lineStarts = earlier ++ [last] ++ later) (below : ∀ start ∈ earlier, start < last)
    (reached : last ≤ offset)
    (above : ∀ start ∈ later, offset < start) : index.lineOf offset = earlier.length := by
  have skipped : earlier.findIdx (fun start => decide (offset ≤ start)) = earlier.length := by
    refine List.findIdx_eq_length.mpr fun start mem => decide_eq_false ?_
    exact Nat.not_le_of_lt (Nat.lt_of_lt_of_le (below start mem) reached)
  unfold lineOf
  rw [starts, List.append_assoc]
  rcases Nat.eq_or_lt_of_le reached with rfl | passed
  · simp [List.findIdx_append, List.findIdx_cons, skipped]
  · -- The search ends at the next start, which is not the offset.
    have next : later.findIdx (fun start => decide (offset ≤ start)) = 0 ∧ later[0]? ≠ some offset := by
      cases later with
      | nil => simp
      | cons start later =>
        have behind := above start List.mem_cons_self
        simp [List.findIdx_cons, Nat.le_of_lt behind, Nat.ne_of_gt behind]
    simp [List.findIdx_append, List.findIdx_cons, skipped, Nat.not_le.mpr passed, next, Nat.add_comm 1,
      List.getElem?_append_right]

section Short

variable {source : String} {offset : Nat} (short : (asBytes source).length < u32Modulus)
  (inside : offset ≤ (asBytes source).length)

include short inside

private theorem lineOf_new : (new source).lineOf offset = newlinesBefore source offset ∧
      (new source).lineStarts[newlinesBefore source offset]? = some (lineStart source offset) := by
  obtain ⟨earlier, counted, starts, below⟩ := starts_eq_append ((asBytes source).take offset)
  have divided := startsFrom_append 0 ((asBytes source).take offset) ((asBytes source).drop offset)
  rw [List.take_append_drop, List.length_take_of_le inside, Nat.zero_add] at divided
  have split : (new source).lineStarts =
      earlier ++ [lineStart source offset] ++ startsFrom offset ((asBytes source).drop offset) := by
    rw [lineStarts_eq short, lineStart, ← starts, List.cons_append, divided]
  have reached : lineStart source offset ≤ offset := Nat.le_trans (length_wholeLines_le _) (List.length_take_le _ _)
  have line := lineOf_eq split below reached fun start mem => lt_of_mem_startsFrom mem
  rw [counted] at line
  refine ⟨line, ?_⟩
  rw [split, newlinesBefore, ← counted]
  simp

/-- The line and the column of an offset are those of the bytes before it, up to the wrap-around of 32-bit
numbers. -/
private theorem lineCol_new : (new source).lineCol offset =
      ((newlinesBefore source offset + 1) % u32Modulus, (offset - lineStart source offset + 1) % u32Modulus) := by
  have total : (new source).totalLen = (asBytes source).length := Nat.min_eq_left (by omega)
  have ⟨line, start⟩ := lineOf_new short inside
  have few : newlinesBefore source offset ≤ (asBytes source).length :=
    Nat.le_trans List.count_le_length (List.length_take_le' _ _)
  have kept : toU32 (newlinesBefore source offset) = newlinesBefore source offset := Nat.min_eq_left (by omega)
  simp only [lineCol, total, Nat.min_eq_left inside, line, start, Option.getD_some, kept]

end Short

/-- In a source of less than 2³² − 1 bytes, the line of an offset is one more than the newlines before it, its
column is counted from the start of that line, and the lines of a range that is not empty are those of its
first and its last byte. -/
theorem positions_exact {source : String} (short : (asBytes source).length < u32Modulus - 1) :
    (∀ offset, (new source).lineCol offset = let place := min offset (asBytes source).length
      (1 + newlinesBefore source place, place - lineStart source place + 1)) ∧
    ∀ range : TextRange, range.start < range.stop → range.stop ≤ (asBytes source).length →
      (new source).spanOf range = ⟨1 + newlinesBefore source range.start,
        1 + newlinesBefore source (range.stop - 1)⟩ ∧
        newlinesBefore source range.start ≤ newlinesBefore source (range.stop - 1) := by
  have exact {place : Nat} (inside : place ≤ (asBytes source).length) :
      (new source).lineCol place = (1 + newlinesBefore source place, place - lineStart source place + 1) := by
    have few : newlinesBefore source place ≤ place := Nat.le_trans List.count_le_length (List.length_take_le _ _)
    rw [lineCol_new (Nat.lt_of_lt_of_le short (Nat.sub_le _ _)) inside, Nat.mod_eq_of_lt (by omega),
      Nat.mod_eq_of_lt (by omega), Nat.add_comm 1]
  refine ⟨fun offset => ?_, fun range filled inside => ?_⟩
  · rw [← exact (Nat.min_le_right _ _)]
    have total : (new source).totalLen = (asBytes source).length := Nat.min_eq_left (by omega)
    simp [lineCol, total]
  · have ordered : newlinesBefore source range.start ≤ newlinesBefore source (range.stop - 1) :=
      (List.take_prefix_take_left (by omega)).sublist.count_le _
    refine ⟨?_, ordered⟩
    simp only [spanOf, exact (show range.start ≤ _ by omega), exact (show range.stop - 1 ≤ _ by omega)]
    rw [Nat.max_eq_left (by omega)]

/-- A range over two lines. -/
theorem positions_exact_two : (new "a\nb").spanOf ⟨0, 3⟩ = ⟨1, 2⟩ :=
  ((@positions_exact "a\nb" (by decide +kernel)).2 ⟨0, 3⟩ (by decide) (by decide +kernel)).1.trans
    (by decide +kernel)

private theorem asBytes_replicate (length : Nat) :
    asBytes (String.ofList (List.replicate length 'a')) = List.replicate length 97 := by
  rw [asBytes, String.toUTF8, String.toByteArray_ofList]
  induction length with
  | zero => rfl
  | succ length ih =>
    rw [List.replicate_succ, List.utf8Encode_cons, List.utf8Encode_singleton, List.replicate_succ, ← ih]
    simp only [ByteArray.data_append, Array.toList_append, List.data_toByteArray]
    rfl

/-- At the end of a line of 2³² − 1 bytes the column is beyond the greatest 32-bit number. -/
theorem column_overflows : ∃ source, (asBytes source).length < u32Modulus ∧
    ((new source).lineCol (asBytes source).length).2 = 0 := by
  -- The length stays a variable, so that the text is never written out.
  obtain ⟨length, greatest⟩ : ∃ length, length + 1 = u32Modulus := ⟨u32Modulus - 1, rfl⟩
  have bytes := asBytes_replicate length
  have short : (asBytes (String.ofList (List.replicate length 'a'))).length < u32Modulus := by
    rw [bytes, List.length_replicate]
    omega
  refine ⟨_, short, ?_⟩
  rw [lineCol_new short (Nat.le_refl _)]
  simp [lineStart, wholeLines, List.rdropWhile, bytes, greatest]

end LineIndex

end FerroProtocols.Airflow
