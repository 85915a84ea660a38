import NostrBbs.Lib.Bytes
import NostrBbs.Search.Index

/-!
# The file of vectors

The vectors of the index as one file of segments, each a header of 64 bytes and a payload
that is padded to a multiple of 64.  The decoder walks the segments by the lengths that their
headers say, narrowed to sizes of 32 bits, and stops without a word at the first one that it
cannot take.
-/

namespace NostrBbs
namespace Search

open Lib (Fault addSize sliceOf toSize sizeLimit maxBytes leBytes leValue bytesAt)

/-! ## Headers -/

def segmentHeaderSize : Nat := 64

/-- The bytes of an entry: a label and the components of a vector. -/
def entrySize : Nat := 8 + DIM * 4

/-- The constants of the format. -/
structure RvfFormat where
  magic : UInt32
  version : UInt8
  vecType : UInt8
  metaType : UInt8
  different : vecType ≠ metaType

structure SegmentHeader where
  magic : UInt32
  version : UInt8
  segType : UInt8
  flags : UInt16
  segmentId : UInt64
  payloadLength : UInt64
  timestampNs : UInt64
  checksumAlgo : UInt8
  compression : UInt8
  reserved0 : UInt16
  reserved1 : UInt32
  contentHash : List UInt8
  uncompressedLen : UInt32
  alignmentPad : UInt32
deriving DecidableEq

def writeHeader (header : SegmentHeader) : List UInt8 :=
  leBytes 4 header.magic.toNat ++ ([header.version, header.segType] ++
    (leBytes 2 header.flags.toNat ++ (leBytes 8 header.segmentId.toNat ++
    (leBytes 8 header.payloadLength.toNat ++ (leBytes 8 header.timestampNs.toNat ++
    ([header.checksumAlgo, header.compression] ++ (leBytes 2 header.reserved0.toNat ++
    (leBytes 4 header.reserved1.toNat ++ (header.contentHash ++
    (leBytes 4 header.uncompressedLen.toNat ++ leBytes 4 header.alignmentPad.toNat))))))))))

def readHeader (bytes : List UInt8) : Option SegmentHeader :=
  if bytes.length < segmentHeaderSize then none
  else
    some
      { magic := UInt32.ofNat (leValue (bytesAt bytes 0 4))
        version := bytes.getD 4 0
        segType := bytes.getD 5 0
        flags := UInt16.ofNat (leValue (bytesAt bytes 6 2))
        segmentId := UInt64.ofNat (leValue (bytesAt bytes 8 8))
        payloadLength := UInt64.ofNat (leValue (bytesAt bytes 16 8))
        timestampNs := UInt64.ofNat (leValue (bytesAt bytes 24 8))
        checksumAlgo := bytes.getD 32 0
        compression := bytes.getD 33 0
        reserved0 := UInt16.ofNat (leValue (bytesAt bytes 34 2))
        reserved1 := UInt32.ofNat (leValue (bytesAt bytes 36 4))
        contentHash := bytesAt bytes 40 16
        uncompressedLen := UInt32.ofNat (leValue (bytesAt bytes 56 4))
        alignmentPad := UInt32.ofNat (leValue (bytesAt bytes 60 4)) }

theorem ofNat_leBytes_16
    (value : UInt16) :
    UInt16.ofNat (leValue (leBytes 2 value.toNat)) = value := by
  rw [Lib.leValue_leBytes_of_lt value.toNat_lt, UInt16.ofNat_toNat]

theorem ofNat_leBytes_32
    (value : UInt32) :
    UInt32.ofNat (leValue (leBytes 4 value.toNat)) = value := by
  rw [Lib.leValue_leBytes_of_lt value.toNat_lt, UInt32.ofNat_toNat]

theorem ofNat_leBytes_64
    (value : UInt64) :
    UInt64.ofNat (leValue (leBytes 8 value.toNat)) = value := by
  rw [Lib.leValue_leBytes_of_lt value.toNat_lt, UInt64.ofNat_toNat]

theorem length_writeHeader
    {header : SegmentHeader}
    (isHash : header.contentHash.length = 16) :
    (writeHeader header).length = segmentHeaderSize := by
  simp [writeHeader, isHash, segmentHeaderSize]

/-- A header reads back as it was written. -/
theorem readHeader_writeHeader
    {header : SegmentHeader}
    (isHash : header.contentHash.length = 16) :
    readHeader (writeHeader header) = some header := by
  unfold readHeader
  rw [if_neg (by rw [length_writeHeader isHash]; exact lt_irrefl _)]
  obtain ⟨magic, version, segType, flags, segmentId, payloadLength, timestampNs, checksumAlgo,
    compression, reserved0, reserved1, contentHash, uncompressedLen, alignmentPad⟩ := header
  dsimp only at isHash
  simp [writeHeader, bytesAt, List.drop_append, isHash, List.drop_eq_nil_of_le,
    List.take_of_length_le, ofNat_leBytes_16, ofNat_leBytes_32,
    ofNat_leBytes_64]

/-! ## Encoding -/

/-- The next multiple of 64. -/
def align64 (size : Nat) : Nat :=
  (size + 63) / 64 * 64

/-- A payload and the zeros after it. -/
def padded (payload : List UInt8) : List UInt8 :=
  payload ++ List.replicate (align64 payload.length - payload.length) 0

def entryBytes (entry : Nat × List UInt32) : List UInt8 :=
  leBytes 8 entry.1 ++ entry.2.flatMap fun value => leBytes 4 value.toNat

/-- The text of the second segment. -/
def metaText (count : Nat) : String :=
  "\x7b\"count\":" ++ toString count ++ ",\"dimensions\":" ++ toString DIM ++
    ",\"format\":\"rvf-wasm-v1\",\"metric\":\"cosine\"\x7d"

def segmentHeader
    (format : RvfFormat)
    (segType : UInt8)
    (segmentId : UInt64)
    (payloadLength : Nat)
    (timestampNs : UInt64) : SegmentHeader where
  magic := format.magic
  version := format.version
  segType := segType
  flags := 0
  segmentId := segmentId
  payloadLength := UInt64.ofNat payloadLength
  timestampNs := timestampNs
  checksumAlgo := 0
  compression := 0
  reserved0 := 0
  reserved1 := 0
  contentHash := List.replicate 16 0
  uncompressedLen := 0
  alignmentPad := 0

/-- A segment of a file. -/
def segmentBytes
    (format : RvfFormat)
    (segType : UInt8)
    (segmentId : UInt64)
    (timestampNs : UInt64)
    (payload : List UInt8) : List UInt8 :=
  writeHeader (segmentHeader format segType segmentId payload.length timestampNs) ++ padded payload

def vecPayload (store : VectorStore UInt32) : List UInt8 :=
  store.rows.flatMap entryBytes

def metaPayload (store : VectorStore UInt32) : List UInt8 :=
  (metaText store.count).toUTF8.data.toList

def toRvfBytes
    (format : RvfFormat)
    (store : VectorStore UInt32)
    (nowNs : UInt64) : List UInt8 :=
  segmentBytes format format.vecType 0 nowNs (vecPayload store) ++
    segmentBytes format format.metaType 1 nowNs (metaPayload store)

/-! ## Decoding -/

def valuesOf : List UInt8 → List UInt32
  | first :: second :: third :: fourth :: rest =>
      UInt32.ofNat (leValue [first, second, third, fourth]) :: valuesOf rest
  | _ => []

def entryOf (bytes : List UInt8) : Nat × List UInt32 :=
  (leValue (bytes.take 8), valuesOf (bytes.drop 8))

/-- The entries of a payload from a place on, at most so many. -/
def parseEntries
    (checked : Bool)
    (payload : List UInt8) :
    Nat → Nat → List (Nat × List UInt32) → Except Fault (List (Nat × List UInt32))
  | 0, _, _ => .error .unfinished
  | steps + 1, pos, entries => do
      let stop ← addSize checked pos entrySize
      if stop ≤ payload.length then
        let bytes ← sliceOf payload pos stop
        parseEntries checked payload steps stop (entries ++ [entryOf bytes])
      else return entries

/-- The segments of a file from a place on, at most so many. -/
def readSegments
    (format : RvfFormat)
    (checked : Bool)
    (data : List UInt8) :
    Nat → Nat → List (Nat × List UInt32) → Except Fault (Option (List (Nat × List UInt32)))
  | 0, _, _ => .error .unfinished
  | steps + 1, offset, entries => do
      let payloadStart ← addSize checked offset segmentHeaderSize
      if payloadStart ≤ data.length then
        let bytes ← sliceOf data offset payloadStart
        match readHeader bytes with
        | none => return none
        | some header =>
            if header.magic ≠ format.magic then return some entries
            else
              let payloadLen := toSize header.payloadLength.toNat
              let payloadEnd ← addSize checked payloadStart payloadLen
              if data.length < payloadEnd then return some entries
              else
                let payload ← sliceOf data payloadStart payloadEnd
                let entries ←
                  if header.segType = format.vecType then
                    parseEntries checked payload (payload.length + 1) 0 entries
                  else pure entries
                let rounded ← addSize checked payloadLen 63
                let next ← addSize checked payloadStart (rounded / 64 * 64)
                readSegments format checked data steps next entries
      else return some entries

/-- The entries of a file, `none` where it is refused. -/
def fromRvfBytes
    (format : RvfFormat)
    (checked : Bool)
    (data : List UInt8) : Except Fault (Option (List (Nat × List UInt32))) :=
  readSegments format checked data (data.length + 1) 0 []

/-! ## What a walk reads -/

/-- The whole entries at the front of a payload. -/
def entriesIn (payload : List UInt8) : List (Nat × List UInt32) :=
  if entrySize ≤ payload.length then
    entryOf (payload.take entrySize) :: entriesIn (payload.drop entrySize)
  else []
termination_by payload.length
decreasing_by
  rw [List.length_drop]
  unfold entrySize at *
  omega

/-- A header of the format at a place of a file. -/
structure SegmentAt
    (format : RvfFormat)
    (data : List UInt8)
    (offset : Nat)
    (header : SegmentHeader) : Prop where
  within : offset + segmentHeaderSize ≤ data.length
  read : readHeader (bytesAt data offset segmentHeaderSize) = some header
  magic : header.magic = format.magic

/-- The length of a payload as the decoder takes it. -/
def SegmentHeader.payloadSize (header : SegmentHeader) : Nat :=
  toSize header.payloadLength.toNat

/-- Where the segment after one begins. -/
def SegmentHeader.nextOffset (header : SegmentHeader) (offset : Nat) : Nat :=
  offset + segmentHeaderSize + align64 header.payloadSize

/-- The entries of a segment. -/
def segmentEntries
    (format : RvfFormat)
    (data : List UInt8)
    (offset : Nat)
    (header : SegmentHeader) : List (Nat × List UInt32) :=
  if header.segType = format.vecType then
    entriesIn (bytesAt data (offset + segmentHeaderSize) header.payloadSize)
  else []

section Walk

variable {format : RvfFormat} {checked : Bool} {data payload : List UInt8} {offset steps : Nat}
  {entries : List (Nat × List UInt32)} {header : SegmentHeader}

theorem parseEntries_eq
    (isBytes : payload.length ≤ maxBytes)
    {pos : Nat}
    (within : pos ≤ payload.length)
    (enough : payload.length - pos < steps) :
    parseEntries checked payload steps pos entries =
      .ok (entries ++ entriesIn (payload.drop pos)) := by
  induction steps generalizing pos entries with
  | zero => exact absurd enough (Nat.not_lt_zero _)
  | succ steps inductionHypothesis =>
      have fits : pos + entrySize < sizeLimit := by
        unfold maxBytes at isBytes
        unfold sizeLimit entrySize DIM
        omega
      unfold parseEntries entriesIn
      rw [Lib.addSize_of_lt checked fits, List.length_drop]
      by_cases another : pos + entrySize ≤ payload.length
      · have sliced := Lib.sliceOf_of_le (Nat.le_add_right pos entrySize) another
        have room : entrySize ≤ payload.length - pos := by omega
        have taken : bytesAt payload pos (pos + entrySize - pos) =
            (payload.drop pos).take entrySize := by
          rw [Nat.add_sub_cancel_left]
          rfl
        have positive : 0 < entrySize := by decide
        have later := @inductionHypothesis
          (entries ++ [entryOf ((payload.drop pos).take entrySize)]) (pos + entrySize) another
          (by omega)
        rw [if_pos room, List.drop_drop]
        change (if pos + entrySize ≤ payload.length then _ else _) = _
        rw [if_pos another, sliced, taken]
        change parseEntries checked payload steps (pos + entrySize) _ = _
        rw [later, List.append_assoc]
        rfl
      · rw [if_neg (by omega), List.append_nil]
        change (if pos + entrySize ≤ payload.length then _ else _) = _
        rw [if_neg another]
        rfl

/-- A place from which a header can be looked for without overflow. -/
theorem addSize_header
    (isBytes : data.length ≤ maxBytes)
    (near : offset ≤ data.length + 63) :
    addSize checked offset segmentHeaderSize = .ok (offset + segmentHeaderSize) := by
  refine Lib.addSize_of_lt checked ?_
  unfold maxBytes at isBytes
  unfold segmentHeaderSize sizeLimit
  omega

/-- Where no segment begins, the walk ends. -/
theorem readSegments_of_none
    (isBytes : data.length ≤ maxBytes)
    (near : offset ≤ data.length + 63)
    (noSegment : ∀ header, ¬SegmentAt format data offset header) :
    readSegments format checked data (steps + 1) offset entries = .ok (some entries) := by
  unfold readSegments
  rw [addSize_header isBytes near]
  change (if offset + segmentHeaderSize ≤ data.length then _ else _) = _
  by_cases within : offset + segmentHeaderSize ≤ data.length
  · rw [if_pos within, Lib.sliceOf_of_le (Nat.le_add_right _ _) within, Nat.add_sub_cancel_left]
    have isHeader : (bytesAt data offset segmentHeaderSize).length = segmentHeaderSize :=
      Lib.length_bytesAt within
    cases read : readHeader (bytesAt data offset segmentHeaderSize) with
    | none =>
        unfold readHeader at read
        rw [if_neg (by omega)] at read
        cases read
    | some header =>
        have otherMagic : header.magic ≠ format.magic := fun magic =>
          noSegment header ⟨within, read, magic⟩
        change (match readHeader (bytesAt data offset segmentHeaderSize) with
          | none => _
          | some header => _) = _
        rw [read]
        dsimp only
        rw [if_pos otherMagic]
        rfl
  · rw [if_neg within]
    rfl

/-- The walk at a segment, up to the end of its payload. -/
theorem readSegments_segment
    (isBytes : data.length ≤ maxBytes)
    (near : offset ≤ data.length + 63)
    (segment : SegmentAt format data offset header) :
    readSegments format checked data (steps + 1) offset entries = (do
      let payloadEnd ← addSize checked (offset + segmentHeaderSize) header.payloadSize
      if data.length < payloadEnd then return some entries
      else
        let payload ← sliceOf data (offset + segmentHeaderSize) payloadEnd
        let entries ←
          if header.segType = format.vecType then
            parseEntries checked payload (payload.length + 1) 0 entries
          else pure entries
        let rounded ← addSize checked header.payloadSize 63
        let next ← addSize checked (offset + segmentHeaderSize) (rounded / 64 * 64)
        readSegments format checked data steps next entries) := by
  rw [readSegments, addSize_header isBytes near]
  change (if offset + segmentHeaderSize ≤ data.length then _ else _) = _
  rw [if_pos segment.within, Lib.sliceOf_of_le (Nat.le_add_right _ _) segment.within,
    Nat.add_sub_cancel_left]
  change (match readHeader (bytesAt data offset segmentHeaderSize) with
    | none => _
    | some header => _) = _
  rw [segment.read]
  dsimp only
  rw [if_neg (not_not.mpr segment.magic)]
  rfl

/-- Where the end of a payload passes the sizes, the walk ends in a fault. -/
theorem readSegments_of_wraps
    (isBytes : data.length ≤ maxBytes)
    (near : offset ≤ data.length + 63)
    (segment : SegmentAt format data offset header)
    (wraps : sizeLimit ≤ offset + segmentHeaderSize + header.payloadSize) :
    ∃ fault, fault ≠ .unfinished ∧
      readSegments format checked data (steps + 1) offset entries = .error fault := by
  rw [readSegments_segment isBytes near segment]
  have narrow : header.payloadSize < sizeLimit := Nat.mod_lt _ (by decide)
  have within := segment.within
  unfold addSize
  rw [if_neg (Nat.not_lt.mpr wraps)]
  cases checked with
  | true => exact ⟨.overflow, by decide, rfl⟩
  | false =>
      have wrapped : toSize (offset + segmentHeaderSize + header.payloadSize) <
          offset + segmentHeaderSize := by
        unfold toSize
        rw [Nat.mod_eq_sub_mod wraps, Nat.mod_eq_of_lt]
        · unfold sizeLimit at *
          omega
        · unfold maxBytes at isBytes
          unfold sizeLimit at *
          omega
      refine ⟨.outOfRange, by decide, ?_⟩
      change (if data.length < toSize (offset + segmentHeaderSize + header.payloadSize) then _
        else _) = _
      rw [if_neg (by omega)]
      unfold sliceOf
      rw [if_neg (by omega)]
      rfl

/-- Where a payload runs past the end of the file, the walk ends. -/
theorem readSegments_of_cut
    (isBytes : data.length ≤ maxBytes)
    (near : offset ≤ data.length + 63)
    (segment : SegmentAt format data offset header)
    (fits : offset + segmentHeaderSize + header.payloadSize < sizeLimit)
    (cut : data.length < offset + segmentHeaderSize + header.payloadSize) :
    readSegments format checked data (steps + 1) offset entries = .ok (some entries) := by
  rw [readSegments_segment isBytes near segment, Lib.addSize_of_lt checked fits]
  change (if data.length < offset + segmentHeaderSize + header.payloadSize then _ else _) = _
  rw [if_pos cut]
  rfl

/-- A segment that lies in the file is read, and the walk goes on after it. -/
theorem readSegments_of_fits
    (isBytes : data.length ≤ maxBytes)
    (near : offset ≤ data.length + 63)
    (segment : SegmentAt format data offset header)
    (fits : offset + segmentHeaderSize + header.payloadSize ≤ data.length) :
    readSegments format checked data (steps + 1) offset entries =
      readSegments format checked data steps (header.nextOffset offset)
        (entries ++ segmentEntries format data offset header) := by
  have small : data.length < sizeLimit := by
    unfold maxBytes at isBytes
    unfold sizeLimit
    omega
  rw [readSegments_segment isBytes near segment, Lib.addSize_of_lt checked (by omega)]
  change (if data.length < offset + segmentHeaderSize + header.payloadSize then _ else _) = _
  rw [if_neg (by omega), Lib.sliceOf_of_le (Nat.le_add_right _ _) fits, Nat.add_sub_cancel_left]
  have isPayload : (bytesAt data (offset + segmentHeaderSize) header.payloadSize).length =
      header.payloadSize := Lib.length_bytesAt fits
  have roundedFits : header.payloadSize + 63 < sizeLimit := by
    unfold maxBytes at isBytes
    unfold sizeLimit
    omega
  have nextFits : offset + segmentHeaderSize + (header.payloadSize + 63) / 64 * 64 <
      sizeLimit := by
    unfold maxBytes at isBytes
    unfold sizeLimit
    omega
  have after : ∀ entries, (do
      let rounded ← addSize checked header.payloadSize 63
      let next ← addSize checked (offset + segmentHeaderSize) (rounded / 64 * 64)
      readSegments format checked data steps next entries) =
      readSegments format checked data steps (header.nextOffset offset) entries := by
    intro entries
    rw [Lib.addSize_of_lt checked roundedFits]
    change (do
      let next ← addSize checked (offset + segmentHeaderSize)
        ((header.payloadSize + 63) / 64 * 64)
      readSegments format checked data steps next entries) = _
    rw [Lib.addSize_of_lt checked nextFits]
    rfl
  unfold segmentEntries
  by_cases isVec : header.segType = format.vecType
  · have parsed := @parseEntries_eq checked
      (bytesAt data (offset + segmentHeaderSize) header.payloadSize)
      ((bytesAt data (offset + segmentHeaderSize) header.payloadSize).length + 1) entries
      (by omega) 0 (Nat.zero_le _) (by omega)
    rw [List.drop_zero] at parsed
    rw [if_pos isVec, ← after]
    change (if header.segType = format.vecType then (do
      let entries ← parseEntries checked
        (bytesAt data (offset + segmentHeaderSize) header.payloadSize)
        ((bytesAt data (offset + segmentHeaderSize) header.payloadSize).length + 1) 0 entries
      _) else _) = _
    rw [if_pos isVec, parsed]
    rfl
  · rw [if_neg isVec, List.append_nil, ← after]
    change (if header.segType = format.vecType then _ else (do
      let rounded ← addSize checked header.payloadSize 63
      let next ← addSize checked (offset + segmentHeaderSize) (rounded / 64 * 64)
      readSegments format checked data steps next entries)) = _
    rw [if_neg isVec]

/-! ## The whole walk -/

/-- The places that a walk comes to, from one on. -/
inductive Reached (format : RvfFormat) (data : List UInt8) : Nat → Nat → Prop
  | here (start : Nat) : Reached format data start start
  | next {start place : Nat} {header : SegmentHeader}
      (segment : SegmentAt format data start header)
      (fits : start + segmentHeaderSize + header.payloadSize ≤ data.length)
      (later : Reached format data (header.nextOffset start) place) :
      Reached format data start place

/-- No segment that a walk comes to says a length that passes the sizes. -/
def NoWrap (format : RvfFormat) (data : List UInt8) (start : Nat) : Prop :=
  ∀ place header, Reached format data start place → SegmentAt format data place header →
    place + segmentHeaderSize + header.payloadSize < sizeLimit

theorem SegmentAt.unique
    {other : SegmentHeader}
    (segment : SegmentAt format data offset header)
    (otherSegment : SegmentAt format data offset other) :
    other = header := by
  have same := otherSegment.read
  rw [segment.read] at same
  exact (Option.some.inj same).symm

theorem nextOffset_le
    (fits : offset + segmentHeaderSize + header.payloadSize ≤ data.length) :
    header.nextOffset offset ≤ data.length + 63 := by
  unfold SegmentHeader.nextOffset align64
  omega

/-- A walk with steps enough returns when no length passes the sizes, and ends in a fault, but
not for want of steps, when one does. -/
theorem readSegments_spec
    (isBytes : data.length ≤ maxBytes)
    (near : offset ≤ data.length + 63)
    (enough : data.length + 64 ≤ offset + 64 * steps) :
    (NoWrap format data offset →
      ∃ result, readSegments format checked data steps offset entries = .ok result) ∧
    (¬NoWrap format data offset → ∃ fault, fault ≠ .unfinished ∧
      readSegments format checked data steps offset entries = .error fault) := by
  induction steps generalizing offset entries with
  | zero => omega
  | succ steps inductionHypothesis =>
      by_cases begins : ∃ header, SegmentAt format data offset header
      · obtain ⟨header, segment⟩ := begins
        by_cases wraps : sizeLimit ≤ offset + segmentHeaderSize + header.payloadSize
        · refine ⟨fun noWrap => ?_, fun _ => readSegments_of_wraps isBytes near segment wraps⟩
          have small := noWrap offset header (.here offset) segment
          omega
        · rw [Nat.not_le] at wraps
          by_cases fits : offset + segmentHeaderSize + header.payloadSize ≤ data.length
          · have later := @inductionHypothesis (header.nextOffset offset)
              (entries ++ segmentEntries format data offset header) (nextOffset_le fits) (by
                unfold SegmentHeader.nextOffset segmentHeaderSize
                omega)
            have same : NoWrap format data offset ↔
                NoWrap format data (header.nextOffset offset) := by
              constructor
              · intro noWrap place other reached
                exact noWrap place other (.next segment fits reached)
              · intro noWrap place other reached otherSegment
                cases reached with
                | here =>
                    rw [segment.unique otherSegment]
                    exact wraps
                | next first _ reachedLater =>
                    rw [segment.unique first] at reachedLater
                    exact noWrap place other reachedLater otherSegment
            rw [readSegments_of_fits isBytes near segment fits, same]
            exact later
          · rw [Nat.not_le] at fits
            have returns : readSegments format checked data (steps + 1) offset entries =
                .ok (some entries) := readSegments_of_cut isBytes near segment wraps fits
            refine ⟨fun _ => ⟨_, returns⟩, fun someWrap => absurd ?_ someWrap⟩
            intro place other reached otherSegment
            cases reached with
            | here =>
                rw [segment.unique otherSegment]
                exact wraps
            | next first firstFits _ =>
                rw [segment.unique first] at firstFits
                omega
      · have noSegment : ∀ header, ¬SegmentAt format data offset header :=
          fun header segment => begins ⟨header, segment⟩
        have returns : readSegments format checked data (steps + 1) offset entries =
            .ok (some entries) := readSegments_of_none isBytes near noSegment
        refine ⟨fun _ => ⟨_, returns⟩, fun someWrap => absurd ?_ someWrap⟩
        intro place other reached otherSegment
        cases reached with
        | here => exact absurd otherSegment (noSegment other)
        | next first _ _ => exact absurd first (noSegment _)

end Walk

/-! ## Files of stores -/

/-- A label and a vector as the index takes them. -/
abbrev VectorInsert :=
  UInt64 × {embedding : List UInt32 // embedding.length = DIM}

/-- The store that inserts build. -/
def storeOf (inserts : List VectorInsert) : VectorStore UInt32 :=
  inserts.foldl (fun store insert => store.insert insert.1.toNat insert.2) VectorStore.new

section Files

variable {format : RvfFormat} {checked : Bool} {entry : Nat × List UInt32} {nowNs : UInt64}
  {store : VectorStore UInt32}

/-- The labels of a store fit their bytes, and its vectors are of their length. -/
def Packable (store : VectorStore UInt32) : Prop :=
  ∀ entry ∈ store.rows, entry.1 < 256 ^ 8 ∧ entry.2.length = DIM

theorem packable_insert
    (packable : Packable store)
    (insert : VectorInsert) :
    Packable (store.insert insert.1.toNat insert.2) := by
  intro entry held
  have found := Lib.Table.find?_of_mem held
  rw [VectorStore.find?_insert] at found
  split at found
  · rw [← Option.some.inj found]
    exact ⟨insert.1.toNat_lt, insert.2.2⟩
  · exact packable entry (Lib.Table.find?_eq_some_iff.mp found).1

theorem packable_storeOf
    (inserts : List VectorInsert) :
    Packable (storeOf inserts) := by
  unfold storeOf
  induction inserts using List.reverseRecOn with
  | nil => exact fun entry held => absurd held List.not_mem_nil
  | append_singleton inserts insert inductionHypothesis =>
      rw [List.foldl_append]
      exact packable_insert inductionHypothesis insert

theorem length_values
    (values : List UInt32) :
    (values.flatMap fun value => leBytes 4 value.toNat).length = values.length * 4 := by
  induction values with
  | nil => rfl
  | cons value values inductionHypothesis =>
      rw [List.flatMap_cons, List.length_append, inductionHypothesis, Lib.length_leBytes,
        List.length_cons]
      ring

theorem length_entryBytes
    (isVector : entry.2.length = DIM) :
    (entryBytes entry).length = entrySize := by
  rw [entryBytes, List.length_append, Lib.length_leBytes, length_values, isVector]
  rfl

theorem valuesOf_append
    (value : UInt32)
    (rest : List UInt8) :
    valuesOf (leBytes 4 value.toNat ++ rest) = value :: valuesOf rest := by
  have first : UInt32.ofNat (leValue (leBytes 4 value.toNat)) = value :=
    ofNat_leBytes_32 value
  simp only [leBytes] at first ⊢
  rw [List.cons_append, List.cons_append, List.cons_append, List.cons_append, List.nil_append,
    valuesOf, first]

theorem valuesOf_values
    (values : List UInt32) :
    valuesOf (values.flatMap fun value => leBytes 4 value.toNat) = values := by
  induction values with
  | nil => rfl
  | cons value values inductionHypothesis =>
      rw [List.flatMap_cons, valuesOf_append, inductionHypothesis]

theorem entryOf_entryBytes
    (isLabel : entry.1 < 256 ^ 8) :
    entryOf (entryBytes entry) = entry := by
  have isFront : (leBytes 8 entry.1).length = 8 := Lib.length_leBytes 8 entry.1
  unfold entryOf entryBytes
  rw [List.take_left' isFront, List.drop_left' isFront, Lib.leValue_leBytes_of_lt isLabel,
    valuesOf_values]

theorem length_vecPayload
    (packable : Packable store) :
    (vecPayload store).length = store.rows.length * entrySize := by
  have ofRows : ∀ rows : List (Nat × List UInt32), (∀ entry ∈ rows, entry.2.length = DIM) →
      (rows.flatMap entryBytes).length = rows.length * entrySize := by
    intro rows areVectors
    induction rows with
    | nil => simp
    | cons entry rows inductionHypothesis =>
        rw [List.flatMap_cons, List.length_append,
          length_entryBytes (areVectors entry List.mem_cons_self),
          inductionHypothesis fun other isLater => areVectors other
            (List.mem_cons_of_mem _ isLater), List.length_cons]
        ring
  exact ofRows store.rows fun entry held => (packable entry held).2

/-- The entries of the payload of a store are its rows. -/
theorem entriesIn_vecPayload
    (packable : Packable store) :
    entriesIn (vecPayload store) = store.rows := by
  have ofRows : ∀ rows : List (Nat × List UInt32),
      (∀ entry ∈ rows, entry.1 < 256 ^ 8 ∧ entry.2.length = DIM) →
      entriesIn (rows.flatMap entryBytes) = rows := by
    intro rows packableRows
    induction rows with
    | nil =>
        rw [entriesIn]
        rfl
    | cons entry rows inductionHypothesis =>
        obtain ⟨isLabel, isVector⟩ := packableRows entry List.mem_cons_self
        have isFront := length_entryBytes isVector
        rw [List.flatMap_cons, entriesIn, List.length_append, isFront,
          if_pos (Nat.le_add_right _ _), List.take_left' isFront, List.drop_left' isFront,
          entryOf_entryBytes isLabel,
          inductionHypothesis fun other isLater => packableRows other
            (List.mem_cons_of_mem _ isLater)]
  exact ofRows store.rows packable

theorem length_segmentBytes
    (segType : UInt8)
    (segmentId : UInt64)
    (payload : List UInt8) :
    (segmentBytes format segType segmentId nowNs payload).length =
      segmentHeaderSize + align64 payload.length := by
  have room : payload.length ≤ align64 payload.length := by
    unfold align64
    omega
  rw [segmentBytes, List.length_append, length_writeHeader rfl, padded, List.length_append,
    List.length_replicate]
  omega

theorem payloadSize_segmentHeader
    {segType : UInt8}
    {segmentId : UInt64}
    {length : Nat}
    (small : length < sizeLimit) :
    (segmentHeader format segType segmentId length nowNs).payloadSize = length := by
  unfold sizeLimit at small
  have narrow : (UInt64.ofNat length).toNat = length := by
    rw [UInt64.toNat_ofNat', Nat.mod_eq_of_lt (by omega)]
  unfold SegmentHeader.payloadSize segmentHeader toSize sizeLimit
  dsimp only
  rw [narrow, Nat.mod_eq_of_lt small]

section Written

variable {front rest payload : List UInt8} {segType : UInt8} {segmentId : UInt64}
  {offset size : Nat}

/-- A segment that was written is found where it begins, as soon as its header is all there. -/
theorem segmentAt_written
    (isFront : front.length = offset)
    (within : offset + segmentHeaderSize ≤ size)
    (isPart : size ≤ (front ++ (segmentBytes format segType segmentId nowNs payload ++
      rest)).length) :
    SegmentAt format ((front ++ (segmentBytes format segType segmentId nowNs payload ++
      rest)).take size) offset (segmentHeader format segType segmentId payload.length nowNs) where
  within := by
    rw [List.length_take, Nat.min_eq_left isPart]
    exact within
  read := by
    have isHeader : (writeHeader (segmentHeader format segType segmentId payload.length
        nowNs)).length = segmentHeaderSize := length_writeHeader rfl
    rw [Lib.bytesAt_take within, segmentBytes, List.append_assoc,
      Lib.bytesAt_append isFront isHeader]
    exact readHeader_writeHeader rfl
  magic := rfl

/-- Its payload is found after the header, as soon as it is all there. -/
theorem bytesAt_written
    (isFront : front.length = offset)
    (within : offset + segmentHeaderSize + payload.length ≤ size) :
    bytesAt ((front ++ (segmentBytes format segType segmentId nowNs payload ++ rest)).take size)
      (offset + segmentHeaderSize) payload.length = payload := by
  have isHeader : (front ++ writeHeader (segmentHeader format segType segmentId payload.length
      nowNs)).length = offset + segmentHeaderSize := by
    rw [List.length_append, isFront, length_writeHeader rfl]
  rw [Lib.bytesAt_take within, segmentBytes, padded, List.append_assoc, List.append_assoc,
    ← List.append_assoc front]
  exact Lib.bytesAt_append isHeader rfl

end Written

/-- What is read of the front of a file that a store was written to: the whole store when the
first payload is all there, and nothing before. -/
theorem fromRvfBytes_take
    (checked : Bool)
    (packable : Packable store)
    (isBytes : (toRvfBytes format store nowNs).length ≤ maxBytes)
    {size : Nat}
    (isPart : size ≤ (toRvfBytes format store nowNs).length) :
    fromRvfBytes format checked ((toRvfBytes format store nowNs).take size) =
      .ok (some (if size < segmentHeaderSize + store.rows.length * entrySize then []
        else store.rows)) := by
  have total : (toRvfBytes format store nowNs).length =
      segmentHeaderSize + align64 (vecPayload store).length +
        (segmentHeaderSize + align64 (metaPayload store).length) := by
    rw [toRvfBytes, List.length_append, length_segmentBytes, length_segmentBytes]
  have vecRoom : (vecPayload store).length ≤ align64 (vecPayload store).length := by
    unfold align64
    omega
  have metaRoom : (metaPayload store).length ≤ align64 (metaPayload store).length := by
    unfold align64
    omega
  have bounded : (toRvfBytes format store nowNs).length < sizeLimit := by
    unfold maxBytes at isBytes
    unfold sizeLimit
    omega
  have length : ((toRvfBytes format store nowNs).take size).length = size := by
    rw [List.length_take, Nat.min_eq_left isPart]
  have partIsBytes : ((toRvfBytes format store nowNs).take size).length ≤ maxBytes := by omega
  have vecSize : (segmentHeader format format.vecType 0 (vecPayload store).length
      nowNs).payloadSize = (vecPayload store).length :=
    payloadSize_segmentHeader (by omega)
  have metaSize : (segmentHeader format format.metaType 1 (metaPayload store).length
      nowNs).payloadSize = (metaPayload store).length :=
    payloadSize_segmentHeader (by omega)
  have headerPositive : segmentHeaderSize = 64 := rfl
  rw [← length_vecPayload packable]
  unfold fromRvfBytes
  rw [length]
  by_cases noHeader : size < segmentHeaderSize
  · rw [if_pos (by omega)]
    refine readSegments_of_none partIsBytes (Nat.zero_le _) fun header segment => ?_
    have within := segment.within
    omega
  · have vecSegment : SegmentAt format ((toRvfBytes format store nowNs).take size) 0
        (segmentHeader format format.vecType 0 (vecPayload store).length nowNs) :=
      @segmentAt_written format nowNs [] (segmentBytes format format.metaType 1 nowNs
        (metaPayload store)) (vecPayload store) format.vecType 0 0 size rfl (by omega) isPart
    by_cases cutVec : size < segmentHeaderSize + (vecPayload store).length
    · rw [if_pos cutVec]
      exact readSegments_of_cut partIsBytes (Nat.zero_le _) vecSegment (by omega) (by omega)
    · rw [if_neg cutVec, readSegments_of_fits partIsBytes (Nat.zero_le _) vecSegment (by omega),
        List.nil_append]
      have vecRead : segmentEntries format ((toRvfBytes format store nowNs).take size) 0
          (segmentHeader format format.vecType 0 (vecPayload store).length nowNs) = store.rows := by
        have isVec : (segmentHeader format format.vecType 0 (vecPayload store).length
            nowNs).segType = format.vecType := rfl
        have bytes : bytesAt ((toRvfBytes format store nowNs).take size)
            (0 + segmentHeaderSize) (vecPayload store).length = vecPayload store :=
          @bytesAt_written format nowNs [] (segmentBytes format format.metaType 1 nowNs
            (metaPayload store)) (vecPayload store) format.vecType 0 0 size rfl (by omega)
        unfold segmentEntries
        rw [if_pos isVec, vecSize, bytes]
        exact entriesIn_vecPayload packable
      have isFront : (segmentBytes format format.vecType 0 nowNs (vecPayload store)).length =
          (segmentHeader format format.vecType 0 (vecPayload store).length nowNs).nextOffset 0 := by
        rw [length_segmentBytes, SegmentHeader.nextOffset, vecSize, Nat.zero_add]
      have near : (segmentHeader format format.vecType 0 (vecPayload store).length
          nowNs).nextOffset 0 ≤ ((toRvfBytes format store nowNs).take size).length + 63 :=
        nextOffset_le (by omega)
      rw [vecRead]
      obtain ⟨steps, rfl⟩ : ∃ steps, size = steps + 2 := ⟨size - 2, by omega⟩
      by_cases noMeta : ∃ header, SegmentAt format
          ((toRvfBytes format store nowNs).take (steps + 2))
          ((segmentHeader format format.vecType 0 (vecPayload store).length nowNs).nextOffset 0)
          header
      · obtain ⟨header, segment⟩ := noMeta
        have written : toRvfBytes format store nowNs =
            segmentBytes format format.vecType 0 nowNs (vecPayload store) ++
              (segmentBytes format format.metaType 1 nowNs (metaPayload store) ++ []) := by
          rw [List.append_nil]
          rfl
        have metaSegment : SegmentAt format ((toRvfBytes format store nowNs).take (steps + 2))
            ((segmentHeader format format.vecType 0 (vecPayload store).length nowNs).nextOffset 0)
            (segmentHeader format format.metaType 1 (metaPayload store).length nowNs) := by
          have within := segment.within
          rw [written]
          exact segmentAt_written isFront (by omega) (by rw [← written]; exact isPart)
        by_cases cutMeta : steps + 2 < (segmentHeader format format.vecType 0
            (vecPayload store).length nowNs).nextOffset 0 + segmentHeaderSize +
              (metaPayload store).length
        · refine readSegments_of_cut partIsBytes near metaSegment ?_ ?_
          · rw [metaSize, ← isFront, length_segmentBytes]
            omega
          · rw [metaSize, length]
            exact cutMeta
        · rw [readSegments_of_fits partIsBytes near metaSegment (by rw [metaSize, length]; omega)]
          have noEntries : segmentEntries format
              ((toRvfBytes format store nowNs).take (steps + 2))
              ((segmentHeader format format.vecType 0 (vecPayload store).length nowNs).nextOffset 0)
              (segmentHeader format format.metaType 1 (metaPayload store).length nowNs) = [] :=
            if_neg format.different.symm
          rw [noEntries, List.append_nil]
          refine readSegments_of_none partIsBytes (nextOffset_le (by rw [metaSize, length]; omega))
            fun other otherSegment => ?_
          have within := otherSegment.within
          rw [SegmentHeader.nextOffset, metaSize, ← isFront, length_segmentBytes] at within
          omega
      · exact readSegments_of_none partIsBytes near fun header segment => noMeta ⟨header, segment⟩

/-- A file reads back as the store that it was written from; a string of bytes is decoded
without a fault exactly when no length that the walk comes to passes the sizes, and never
without end; and the front of a file is taken for a smaller store exactly when it ends before
the first payload does. -/
theorem rvf_file
    (format : RvfFormat)
    (checked : Bool) :
    (∀ inserts nowNs, (toRvfBytes format (storeOf inserts) nowNs).length ≤ maxBytes →
      fromRvfBytes format checked (toRvfBytes format (storeOf inserts) nowNs) =
        .ok (some (storeOf inserts).rows)) ∧
    (∀ data : List UInt8, data.length ≤ maxBytes →
      ((∃ result, fromRvfBytes format checked data = .ok result) ↔ NoWrap format data 0) ∧
        fromRvfBytes format checked data ≠ .error .unfinished) ∧
    ∀ inserts nowNs size, (toRvfBytes format (storeOf inserts) nowNs).length ≤ maxBytes →
      (storeOf inserts).rows ≠ [] →
      size < (toRvfBytes format (storeOf inserts) nowNs).length →
      ((∃ entries, fromRvfBytes format checked
          ((toRvfBytes format (storeOf inserts) nowNs).take size) = .ok (some entries) ∧
          entries.length < (storeOf inserts).rows.length) ↔
        size < segmentHeaderSize + (storeOf inserts).rows.length * entrySize) := by
  refine ⟨?_, ?_, ?_⟩
  · intro inserts nowNs isBytes
    have packable := packable_storeOf inserts
    have read := @fromRvfBytes_take format nowNs (storeOf inserts) checked packable isBytes _
      (le_refl _)
    rw [List.take_length] at read
    have whole : ¬(toRvfBytes format (storeOf inserts) nowNs).length <
        segmentHeaderSize + (storeOf inserts).rows.length * entrySize := by
      rw [← length_vecPayload packable, toRvfBytes, List.length_append, length_segmentBytes]
      unfold align64
      omega
    rw [read, if_neg whole]
  · intro data isBytes
    obtain ⟨returns, faults⟩ := @readSegments_spec format checked data 0 (data.length + 1) []
      isBytes (Nat.zero_le _) (by omega)
    by_cases noWrap : NoWrap format data 0
    · obtain ⟨result, isResult⟩ := returns noWrap
      refine ⟨iff_of_true ⟨result, isResult⟩ noWrap, ?_⟩
      rw [fromRvfBytes, isResult]
      rintro ⟨⟩
    · obtain ⟨fault, notUnfinished, isFault⟩ := faults noWrap
      refine ⟨iff_of_false ?_ noWrap, ?_⟩
      · rintro ⟨result, isResult⟩
        rw [fromRvfBytes, isFault] at isResult
        cases isResult
      · rw [fromRvfBytes, isFault]
        exact fun same => notUnfinished (Except.error.inj same)
  · intro inserts nowNs size isBytes nonempty isPart
    rw [fromRvfBytes_take checked (packable_storeOf inserts) isBytes (Nat.le_of_lt isPart)]
    have positive : 0 < (storeOf inserts).rows.length := List.length_pos_iff.mpr nonempty
    constructor
    · rintro ⟨entries, isRead, fewer⟩
      by_contra late
      rw [if_neg late] at isRead
      rw [← Option.some.inj (Except.ok.inj isRead)] at fewer
      exact lt_irrefl _ fewer
    · intro early
      rw [if_pos early]
      exact ⟨[], rfl, positive⟩

/-- A header alone whose length is the largest size ends the decoder in a fault, and of a file
with one vector the header alone is taken for a store without any. -/
theorem damaged_files :
    let format : RvfFormat := ⟨0x52564653, 1, 1, 7, by decide⟩
    let damaged := writeHeader (segmentHeader format format.vecType 0 (2 ^ 32 - 1) 0)
    let store := storeOf [(1, ⟨List.replicate DIM 0, List.length_replicate ..⟩)]
    (∀ checked, ∃ fault, fromRvfBytes format checked damaged = .error fault) ∧
      store.count = 1 ∧
      fromRvfBytes format false ((toRvfBytes format store 0).take 64) = .ok (some []) := by
  intro format damaged store
  refine ⟨?_, rfl, ?_⟩
  · intro checked
    have length : damaged.length = 64 := length_writeHeader rfl
    have segment : SegmentAt format damaged 0
        (segmentHeader format format.vecType 0 (2 ^ 32 - 1) 0) := by
      refine ⟨by rw [length]; decide, ?_, rfl⟩
      have whole : bytesAt damaged 0 segmentHeaderSize = damaged :=
        List.take_of_length_le (by rw [List.drop_zero, length]; decide)
      rw [whole]
      exact readHeader_writeHeader rfl
    have size : (segmentHeader format format.vecType 0 (2 ^ 32 - 1) 0).payloadSize = 2 ^ 32 - 1 :=
      payloadSize_segmentHeader (by decide)
    obtain ⟨fault, -, isFault⟩ := @readSegments_of_wraps format checked damaged 0 64 []
      _ (by rw [length]; decide) (Nat.zero_le _) segment (by rw [size]; decide)
    unfold fromRvfBytes
    rw [length]
    exact ⟨fault, isFault⟩
  · have metaLength : (metaPayload store).length = 69 := by
      decide
    have packable := packable_storeOf [(1, ⟨List.replicate DIM 0, List.length_replicate ..⟩)]
    have length : (toRvfBytes format store 0).length = 1856 := by
      rw [toRvfBytes, List.length_append, length_segmentBytes, length_segmentBytes,
        length_vecPayload packable, metaLength]
      rfl
    exact @fromRvfBytes_take format 0 store false packable (by rw [length]; decide) 64
      (by rw [length]; decide)

end Files

end Search
end NostrBbs
