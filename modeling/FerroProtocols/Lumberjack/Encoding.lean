import FerroProtocols.Lumberjack.Client
import FerroProtocols.Lumberjack.Grammar

/-!
What the encoders write is what the grammar reads, with any bytes behind it.
-/

namespace FerroProtocols.Lumberjack

open BigEndian

/-- The word behind a two-byte header is read back. -/
theorem wordAt_header (version frameType : UInt8) (word : UInt32) (back : Bytes) :
    wordAt (version :: frameType :: (toBytes word ++ back)) 2 = some word := by
  -- The two header bytes are skipped, and the word is on the front of the rest.
  have behind := wordAt_append_right [version, frameType] (toBytes word ++ back) 0
  rw [wordAt_toBytes] at behind
  exact behind

/-- The word behind a header and another word is read back. -/
theorem wordAt_header_word (version frameType : UInt8) (first second : UInt32) (back : Bytes) :
    wordAt (version :: frameType :: (toBytes first ++ (toBytes second ++ back))) 6 = some second := by
  have behind := wordAt_append_right (version :: frameType :: toBytes first)
    (toBytes second ++ back) 0
  rw [wordAt_toBytes] at behind
  -- Header and first word are six bytes together.
  have six : (version :: frameType :: toBytes first).length + 0 = 6 := by simp
  rw [six] at behind
  simpa using behind

/-- A length that is a 32-bit word is written as it is. -/
theorem toNat_u32OfLength {length : Nat} (word : length < 2 ^ 32) : (u32OfLength length).toNat = length := by
  have below : length ≤ u32Max := by
    unfold u32Max
    omega
  rw [u32OfLength, Nat.min_eq_left below]
  exact UInt32.toNat_ofNat_of_lt' word

/-- An encoded Window frame is read back. -/
theorem parseFrame_encodeWindow (zlib : Zlib) (cap : UInt64) (count : UInt32) (back : Bytes) :
    parseFrame zlib cap (encodeWindow count ++ back) = .item (.window count) 6 := by
  have read := wordAt_header protocolVersion frameTypeWindow count back
  have layout : encodeWindow count ++ back =
      protocolVersion :: frameTypeWindow :: (toBytes count ++ back) := by simp [encodeWindow]
  rw [layout, parseFrame_window]
  simp only [parseWord, read]

/-- The bytes behind a frame's own are what is left of it. -/
theorem drop_encodeWindow (count : UInt32) (back : Bytes) : (encodeWindow count ++ back).drop 6 = back := by
  have six : (encodeWindow count).length = 6 := by simp [encodeWindow]
  exact List.drop_left' six

/-- An encoded JSON frame is as long as its header and its payload. -/
theorem length_encodeJsonFrame (seq : UInt32) (payload : Bytes) :
    (encodeJsonFrame seq payload).length = 10 + payload.length := by
  simp only [encodeJsonFrame, List.length_cons, List.length_append, toBytes_length]
  omega

variable {cap : UInt64} {zlib : Zlib} {level : UInt32} {inner : Bytes}

/-- An encoded JSON frame is read back when its payload is within the cap. -/
theorem parseFrame_encodeJsonFrame (zlib : Zlib) (seq : UInt32) {payload : Bytes}
    (word : payload.length < 2 ^ 32) (within : payload.length ≤ cap.toNat) (back : Bytes) :
    parseFrame zlib cap (encodeJsonFrame seq payload ++ back) = .item (.json seq payload) (10 + payload.length) := by
  have layout : encodeJsonFrame seq payload ++ back =
      protocolVersion :: frameTypeJson :: (toBytes seq ++
        (toBytes (u32OfLength payload.length) ++ (payload ++ back))) := by
    simp [encodeJsonFrame]
  have seqRead := wordAt_header protocolVersion frameTypeJson seq
    (toBytes (u32OfLength payload.length) ++ (payload ++ back))
  have lenRead := wordAt_header_word protocolVersion frameTypeJson seq
    (u32OfLength payload.length) (payload ++ back)
  rw [← layout] at seqRead lenRead
  -- Ten bytes of header come before the payload.
  have content : ((encodeJsonFrame seq payload ++ back).drop 10).take payload.length = payload := by
    have ten : (protocolVersion :: frameTypeJson :: (toBytes seq ++
        toBytes (u32OfLength payload.length))).length = 10 := by simp
    have split : encodeJsonFrame seq payload ++ back =
        (protocolVersion :: frameTypeJson :: (toBytes seq ++
          toBytes (u32OfLength payload.length))) ++ (payload ++ back) := by simp [encodeJsonFrame]
    rw [split, List.drop_left' ten, List.take_left]
  have arrived : ¬ (encodeJsonFrame seq payload ++ back).length < 10 + payload.length := by
    rw [List.length_append, length_encodeJsonFrame]
    omega
  have selected : parseFrame zlib cap (encodeJsonFrame seq payload ++ back) =
      parseJson cap (encodeJsonFrame seq payload ++ back) := by
    rw [layout, parseFrame_json]
  rw [selected]
  simp only [parseJson, seqRead, lenRead, toNat_u32OfLength word, if_neg (Nat.not_lt.mpr within),
    if_neg arrived, content]

private theorem decompressCapped_compress (roundTrips : zlib.RoundTrips)
    {compressed : Bytes} (stored : zlib.compress level inner = .ok compressed) (within : inner.length ≤ cap.toNat) :
    decompressCapped zlib compressed cap = .ok inner := by
  have word := cap.toNat_lt
  -- The bound on the output is at least the cap, so none of the input is cut off.
  have bound : inner.length ≤ min (cap.toNat + 1) u64Max := by
    unfold u64Max
    omega
  have read := roundTrips level inner compressed stored (min (cap.toNat + 1) u64Max)
  rw [List.take_of_length_le bound] at read
  simp only [decompressCapped, read]
  exact if_neg (Nat.not_lt.mpr within)

variable {encoded : Bytes} (stored : encodeCompressed zlib level inner = .ok encoded)

include stored

/-- An encoded batch is read as its contents are decompressed. -/
theorem parseFrame_encoded (back : Bytes) :
    ∃ compressed, zlib.compress level inner = .ok compressed ∧ encoded.length = 6 + compressed.length ∧
      (∀ error, decompressCapped zlib compressed cap = .error error →
        ∃ error, parseFrame zlib cap (encoded ++ back) = .failed error) ∧
      (compressed.length ≤ cap.toNat → ∀ contents, decompressCapped zlib compressed cap = .ok contents →
        parseFrame zlib cap (encoded ++ back) = .item (.compressed contents) encoded.length) := by
  unfold encodeCompressed at stored
  split at stored
  · cases stored
  rename_i compressed compressing
  split at stored
  · rename_i word
    cases stored
    -- The length field holds the length, which fits it.
    have length : (UInt32.ofNat compressed.length).toNat = compressed.length := by
      apply UInt32.toNat_ofNat_of_lt'
      unfold u32Max at word
      have size : UInt32.size = 2 ^ 32 := rfl
      omega
    generalize UInt32.ofNat compressed.length = len at length ⊢
    have lenRead := wordAt_header protocolVersion frameTypeCompressed len (compressed ++ back)
    have layout : protocolVersion :: frameTypeCompressed :: (toBytes len ++ compressed) ++ back =
        protocolVersion :: frameTypeCompressed :: (toBytes len ++ (compressed ++ back)) := by
      simp
    have content : ((protocolVersion :: frameTypeCompressed ::
        (toBytes len ++ (compressed ++ back))).drop 6).take compressed.length = compressed := by
      have split : protocolVersion :: frameTypeCompressed :: (toBytes len ++ (compressed ++ back)) =
          (protocolVersion :: frameTypeCompressed :: toBytes len) ++ (compressed ++ back) := by
        simp
      have six : (protocolVersion :: frameTypeCompressed :: toBytes len).length = 6 := by simp
      rw [split, List.drop_left' six, List.take_left]
    have arrived : ¬ (protocolVersion :: frameTypeCompressed ::
        (toBytes len ++ (compressed ++ back))).length < 6 + compressed.length := by
      simp only [List.length_cons, List.length_append, toBytes_length]
      omega
    have size : (protocolVersion :: frameTypeCompressed :: (toBytes len ++ compressed)).length =
        6 + compressed.length := by
      simp only [List.length_cons, List.length_append, toBytes_length]
      omega
    rw [layout, parseFrame_compressed, size]
    refine ⟨compressed, compressing, rfl, fun error read => ?_, fun small contents read => ?_⟩
    · simp only [parseCompressed, lenRead, length, content, read, if_neg arrived]
      split <;> exact ⟨_, rfl⟩
    · simp only [parseCompressed, lenRead, length, if_neg (Nat.not_lt.mpr small), content, read, if_neg arrived]
  · cases stored

/-- An encoded batch is read back when what it stores and its contents are within the cap. -/
theorem parseFrame_encodeCompressed (roundTrips : zlib.RoundTrips) (within : inner.length ≤ cap.toNat)
    (smaller : encoded.length ≤ 6 + cap.toNat) (back : Bytes) :
    parseFrame zlib cap (encoded ++ back) = .item (.compressed inner) encoded.length := by
  obtain ⟨compressed, compressing, size, _, read⟩ := parseFrame_encoded stored back
  exact read (by omega) inner (decompressCapped_compress roundTrips compressing within)

omit stored

section Table

/-- A data frame of one byte, and what zlib stores for it alone, with the first byte of another frame, and
with a legacy frame behind it. Then two events of forty bytes, numbered across the end of the numbers. -/
def zlibTable : List (Bytes × Bytes) :=
  let event := encodeJsonFrame 2 [0x7B]
  [(event, [120, 94, 51, 242, 98, 96, 96, 96, 2, 98, 198, 106, 0, 5, 158, 0, 251]),
    (event ++ [0x32], [120, 94, 51, 242, 98, 96, 96, 96, 2, 98, 198, 106, 35, 0, 6, 203, 1, 45]),
    (event ++ [0x32, 0x44, 0, 0, 0, 3, 0, 0, 0, 0],
      [120, 94, 51, 242, 98, 96, 96, 96, 2, 98, 198, 106, 35, 23, 32, 197, 12, 196, 12, 0, 19, 211, 1, 116]),
    (encodeJsonFrame 0 (List.replicate 40 0x61) ++ encodeJsonFrame 1 (List.replicate 40 0x61),
      [120, 94, 51, 242, 98, 128, 0, 141, 68, 34, 129, 17, 72, 7, 35, 41, 58, 0, 192, 200, 31, 154])]

/-- The library at level 3, on the inputs of the table. -/
def tableZlib : Zlib where
  compress level input :=
    match zlibTable.find? fun entry => entry.1 = input with
    | some entry => if level = 3 then .ok entry.2 else .error "not in the table"
    | none => .error "not in the table"
  readToEnd stored bound :=
    match zlibTable.find? fun entry => entry.2 = stored with
    | some entry => .ok (entry.1.take bound)
    | none => .error "corrupt deflate stream"

/-- What is stored is read back, as no two inputs are stored alike. -/
theorem tableZlib_roundTrips : tableZlib.RoundTrips := by
  intro level input compressed stored bound
  have back : ∀ entry ∈ zlibTable, (zlibTable.find? fun other => other.2 = entry.2) = some entry := by decide
  simp only [tableZlib] at stored ⊢
  split at stored
  · rename_i entry found
    split at stored
    · cases stored
      have own : entry.1 = input := by simpa using List.find?_some found
      rw [back entry (List.mem_of_find?_eq_some found), ← own]
    · cases stored
  · cases stored

end Table

end FerroProtocols.Lumberjack
