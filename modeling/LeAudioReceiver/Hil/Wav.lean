import LeAudioReceiver.Bytes.LittleEndian
import Mathlib.Data.Rat.Defs

/-!
# The WAV files of the capture oracle

A model of `parse_s16le_wav` in `scripts/hil/capture_analyzer.py`, from the bytes of the file on.
The loop over the chunks has a bound on its iterations, which is to be shown superfluous.  A
decoded sample is an integer over `2 ^ 15`, which a float holds exactly and which is finite, so it
is a rational here and the check for non-finite samples is left out.

* `Reads` : what the chunks behind an offset are, chunk by chunk;
* `parseChunks_ok_iff` : the loop reads exactly that;
* `parseS16leWav_iff` : the parser accepts **exactly the strict files**, and returns their samples.
-/

namespace LeAudioReceiver

namespace Hil

namespace Wav

open LittleEndian

/-! ### The parser -/

/-- `CaptureAnalyzerError`: a text, and the chunk that it quotes. -/
inductive WavError where
  | message (text : String)
  | chunk (text : String) (chunkId : List UInt8)
  /-- More iterations than allowed. -/
  | outOfFuel
  deriving DecidableEq, Repr

/-- `WavData`. -/
structure WavData where
  samples : List (List ℚ)
  channels : ℕ
  sampleRate : ℕ
  frames : ℕ
  deriving DecidableEq

/-- The fields of a `fmt ` chunk. -/
structure Fmt where
  audioFormat : ℕ
  channels : ℕ
  rate : ℕ
  byteRate : ℕ
  blockAlign : ℕ
  bits : ℕ
  deriving DecidableEq, Repr

/-- `SAMPLE_RATE`. -/
def sampleRate : ℕ := 48000

/-- `SAMPLE_WIDTH_BITS`. -/
def sampleWidthBits : ℕ := 16

/-- `SAMPLE_WIDTH_BYTES`. -/
def sampleWidthBytes : ℕ := 2

/-- `b"RIFF"`. -/
def riffId : List UInt8 := [0x52, 0x49, 0x46, 0x46]

/-- `b"WAVE"`. -/
def waveId : List UInt8 := [0x57, 0x41, 0x56, 0x45]

/-- `b"fmt "`. -/
def fmtId : List UInt8 := [0x66, 0x6d, 0x74, 0x20]

/-- `b"data"`. -/
def dataId : List UInt8 := [0x64, 0x61, 0x74, 0x61]

/-- `b"fact"`, `b"LIST"`, `b"JUNK"`, `b"bext"`, `b"cue "` and `b"smpl"`. -/
def extraIds : List (List UInt8) :=
  [[0x66, 0x61, 0x63, 0x74], [0x4c, 0x49, 0x53, 0x54], [0x4a, 0x55, 0x4e, 0x4b],
    [0x62, 0x65, 0x78, 0x74], [0x63, 0x75, 0x65, 0x20], [0x73, 0x6d, 0x70, 0x6c]]

/-- `raw[start:stop]`. -/
def slice (raw : List UInt8) (start stop : ℕ) : List UInt8 := (raw.drop start).take (stop - start)

/-- `struct.unpack("<HHIIHH", payload)`. -/
def unpackFmt (payload : List UInt8) : Fmt :=
  ⟨ofBytes (slice payload 0 2), ofBytes (slice payload 2 4), ofBytes (slice payload 4 8),
    ofBytes (slice payload 8 12), ofBytes (slice payload 12 14), ofBytes (slice payload 14 16)⟩

/-- The loop of `parse_s16le_wav`, and the test behind it. -/
def parseChunks (raw : List UInt8) : ℕ → ℕ → Option Fmt → Option (List UInt8) →
    Except WavError (Option Fmt × Option (List UInt8))
  | 0, _, _, _ => .error .outOfFuel
  | fuel + 1, offset, fmt, data =>
    if offset < raw.length then
      if offset + 8 > raw.length then .error (.message "truncated WAV chunk header")
      else
        let chunkId := slice raw offset (offset + 4)
        let chunkSize := ofBytes (slice raw (offset + 4) (offset + 8))
        let start := offset + 8
        let stop := start + chunkSize
        if stop > raw.length then .error (.message "truncated WAV chunk")
        else
          let payload := slice raw start stop
          let next := stop + chunkSize % 2
          if chunkId = fmtId then
            if fmt.isSome then .error (.message "duplicate fmt chunk")
            else if chunkSize ≠ 16 then
              .error (.message "unsupported extensible or malformed fmt chunk")
            else if next > raw.length then .error (.message "truncated WAV padding")
            else parseChunks raw fuel next (some (unpackFmt payload)) data
          else if chunkId = dataId then
            if data.isSome then .error (.message "duplicate data chunk")
            else if next > raw.length then .error (.message "truncated WAV padding")
            else parseChunks raw fuel next fmt (some payload)
          else if chunkId ∈ extraIds then .error (.chunk "unsupported extra WAV chunk" chunkId)
          else .error (.chunk "unknown WAV chunk" chunkId)
    else if offset ≠ raw.length then .error (.message "trailing WAV corruption")
    else .ok (fmt, data)

/-- The checks of the format and of the size of the data; `none` if all pass. -/
def fmtError (fmt : Fmt) (data : List UInt8) (expectedChannels : Option ℤ) : Option WavError :=
  if fmt.audioFormat ≠ 1 then some (.message "WAV must use uncompressed PCM")
  else if ¬(fmt.channels = 1 ∨ fmt.channels = 2) then
    some (.message "WAV channel count must be 1 or 2")
  else if expectedChannels ≠ none ∧ some (fmt.channels : ℤ) ≠ expectedChannels then
    some (.message "WAV channel count drift")
  else if fmt.rate ≠ sampleRate then some (.message "WAV sample rate must be 48000 Hz")
  else if fmt.bits ≠ sampleWidthBits ∨ fmt.blockAlign ≠ fmt.channels * sampleWidthBytes then
    some (.message "WAV must use 16-bit S16_LE PCM")
  else if fmt.byteRate ≠ fmt.rate * fmt.blockAlign then
    some (.message "WAV byte rate mismatch")
  else if data.length = 0 ∨ data.length % fmt.blockAlign ≠ 0 then
    some (.message "WAV data is empty or frame-truncated")
  else none

/-- `np.frombuffer(data, dtype="<i2")`. -/
def int16s : List UInt8 → List Int16
  | lo :: hi :: bytes => (UInt16.ofNat (ofBytes [lo, hi])).toInt16 :: int16s bytes
  | _ => []

/-- `values.reshape(frames, channels)`. -/
def reshape {α : Type*} : ℕ → ℕ → List α → List (List α)
  | 0, _, _ => []
  | frames + 1, channels, values =>
    values.take channels :: reshape frames channels (values.drop channels)

/-- The decoded data. -/
def wavData (channels rate : ℕ) (values : List Int16) : WavData :=
  let frames := values.length / channels
  { samples := (reshape frames channels values).map (List.map fun x => (x.toInt : ℚ) / 32768)
    channels, sampleRate := rate, frames }

/-- `parse_s16le_wav`, from the bytes of the file. -/
def parseS16leWav (raw : List UInt8) (expectedChannels : Option ℤ) : Except WavError WavData :=
  if raw.length < 12 ∨ slice raw 0 4 ≠ riffId ∨ slice raw 8 12 ≠ waveId then
    .error (.message "WAV must be RIFF/WAVE")
  else if (ofBytes (slice raw 4 8) : ℤ) ≠ raw.length - 8 then
    .error (.message "RIFF size mismatch or trailing corruption")
  else do
    match ← parseChunks raw (raw.length + 1) 12 none none with
    | (some fmt, some data) =>
      match fmtError fmt data expectedChannels with
      | some e => .error e
      | none => .ok (wavData fmt.channels fmt.rate (int16s data))
    | _ => .error (.message "WAV needs one fmt and one data chunk")

/-! ### Strict files -/

/-- The samples as bytes, low byte first. -/
def pcmBytes (values : List Int16) : List UInt8 :=
  values.flatMap fun x => toBytes 2 x.toUInt16.toNat

/-- The format of 16-bit PCM at 48 kHz. -/
def pcmFmt (channels : ℕ) : Fmt :=
  ⟨1, channels, sampleRate, sampleRate * (channels * sampleWidthBytes),
    channels * sampleWidthBytes, sampleWidthBits⟩

/-- The fields of a format as bytes. -/
def packFmt (fmt : Fmt) : List UInt8 :=
  toBytes 2 fmt.audioFormat ++ toBytes 2 fmt.channels ++ toBytes 4 fmt.rate ++
    toBytes 4 fmt.byteRate ++ toBytes 2 fmt.blockAlign ++ toBytes 2 fmt.bits

/-- A chunk: its name, its size, its payload, and a byte of padding behind an odd size. -/
def IsChunk (chunkId payload bytes : List UInt8) : Prop :=
  payload.length < 2 ^ 32 ∧ ∃ pad : List UInt8, pad.length = payload.length % 2 ∧
    bytes = chunkId ++ toBytes 4 payload.length ++ payload ++ pad

/-- A strict file: a header with the size, one format chunk and one data chunk in either order, and
nothing else; the data are whole frames, at least one. -/
def IsWav (raw : List UInt8) (channels : ℕ) (values : List Int16) : Prop :=
  (channels = 1 ∨ channels = 2) ∧ values ≠ [] ∧ values.length % channels = 0 ∧
    raw.length - 8 < 2 ^ 32 ∧
    ∃ fmtChunk dataChunk, IsChunk fmtId (packFmt (pcmFmt channels)) fmtChunk ∧
      IsChunk dataId (pcmBytes values) dataChunk ∧
      (raw = riffId ++ toBytes 4 (raw.length - 8) ++ waveId ++ fmtChunk ++ dataChunk ∨
        raw = riffId ++ toBytes 4 (raw.length - 8) ++ waveId ++ dataChunk ++ fmtChunk)

/-! ### Slices -/

section Slices

variable {raw : List UInt8} {a b : ℕ}

theorem length_slice (h : b ≤ raw.length) : (slice raw a b).length = b - a := by
  rw [slice, List.length_take, List.length_drop]
  omega

theorem slice_append_drop (h : a ≤ b) : slice raw a b ++ raw.drop b = raw.drop a := by
  have hdrop : raw.drop b = (raw.drop a).drop (b - a) := by
    rw [List.drop_drop, Nat.add_sub_cancel' h]
  rw [slice, hdrop, List.take_append_drop]

theorem slice_of_drop {front rest : List UInt8} (h : raw.drop a = front ++ rest)
    (hlen : b = a + front.length) : slice raw a b = front ∧ raw.drop b = rest := by
  subst hlen
  constructor
  · rw [slice, h, Nat.add_sub_cancel_left, List.take_left]
  · rw [← List.drop_drop, h, List.drop_left]

end Slices

/-! ### The loop -/

/-- The chunks that these bytes are, from what was read before to what is read behind them. -/
inductive Reads : List UInt8 → Option Fmt → Option (List UInt8) → Option Fmt →
    Option (List UInt8) → Prop
  | done {fmt data} : Reads [] fmt data fmt data
  | fmt {payload bytes rest data fmt' data'} : IsChunk fmtId payload bytes → payload.length = 16 →
    Reads rest (some (unpackFmt payload)) data fmt' data' →
    Reads (bytes ++ rest) none data fmt' data'
  | data {payload bytes rest fmt fmt' data'} : IsChunk dataId payload bytes →
    Reads rest fmt (some payload) fmt' data' → Reads (bytes ++ rest) fmt none fmt' data'

section Loop

variable {raw : List UInt8} {offset fuel : ℕ}

theorem fields_of_chunk {chunkId payload bytes rest : List UInt8}
    (hchunk : IsChunk chunkId payload bytes) (hid : chunkId.length = 4)
    (hdrop : raw.drop offset = bytes ++ rest) :
    slice raw offset (offset + 4) = chunkId ∧
      ofBytes (slice raw (offset + 4) (offset + 8)) = payload.length ∧
      slice raw (offset + 8) (offset + 8 + payload.length) = payload ∧
      raw.drop (offset + 8 + payload.length + payload.length % 2) = rest ∧
      offset + 8 + payload.length + payload.length % 2 + rest.length = raw.length := by
  obtain ⟨hsize, pad, hpad, rfl⟩ := hchunk
  have hlen := congrArg List.length hdrop
  rw [List.append_assoc, List.append_assoc, List.append_assoc] at hdrop
  obtain ⟨hchunkId, hdrop⟩ := slice_of_drop (b := offset + 4) hdrop (by rw [hid])
  obtain ⟨hsizeField, hdrop⟩ := slice_of_drop (b := offset + 8) hdrop (by rw [length_toBytes])
  obtain ⟨hpayload, hdrop⟩ := slice_of_drop (b := offset + 8 + payload.length) hdrop rfl
  obtain ⟨-, hdrop⟩ := slice_of_drop
    (b := offset + 8 + payload.length + payload.length % 2) hdrop (by rw [hpad])
  refine ⟨hchunkId, ?_, hpayload, hdrop, ?_⟩
  · rw [hsizeField, ofBytes_toBytes_of_lt hsize]
  · simp only [List.length_drop, List.length_append, length_toBytes] at hlen
    omega

theorem exists_chunk {size : ℕ} (hsize : ofBytes (slice raw (offset + 4) (offset + 8)) = size)
    (hnext : offset + 8 + size + size % 2 ≤ raw.length) :
    (slice raw (offset + 8) (offset + 8 + size)).length = size ∧
      ∃ bytes, IsChunk (slice raw offset (offset + 4))
          (slice raw (offset + 8) (offset + 8 + size)) bytes ∧
        raw.drop offset = bytes ++ raw.drop (offset + 8 + size + size % 2) := by
  have hfield : (slice raw (offset + 4) (offset + 8)).length = 4 := by
    rw [length_slice (by omega)]
    omega
  have hlen : (slice raw (offset + 8) (offset + 8 + size)).length = size := by
    rw [length_slice (by omega)]
    omega
  have hlt := ofBytes_lt (slice raw (offset + 4) (offset + 8))
  rw [hfield, hsize] at hlt
  refine ⟨hlen, _, ⟨by rw [hlen]; exact hlt,
    slice raw (offset + 8 + size) (offset + 8 + size + size % 2), ?_, rfl⟩, ?_⟩
  · rw [hlen, length_slice hnext]
    omega
  · rw [hlen, ← hsize, toBytes_of_length hfield, hsize, List.append_assoc, List.append_assoc,
      List.append_assoc, slice_append_drop (by omega), slice_append_drop (by omega),
      slice_append_drop (by omega), slice_append_drop (by omega)]

/-- The loop reads chunks, by induction on the iterations left. -/
theorem reads_of_parseChunks {fmt fmt' : Option Fmt} {data data' : Option (List UInt8)}
    (hoffset : offset ≤ raw.length)
    (h : parseChunks raw fuel offset fmt data = .ok (fmt', data')) :
    Reads (raw.drop offset) fmt data fmt' data' := by
  induction fuel generalizing offset fmt data with
  | zero => cases h
  | succ fuel ih =>
    unfold parseChunks at h
    dsimp only at h
    split_ifs at h with hmore hheader htrunc hfmt hdup h16 hpad hdata hdup hpad hextra hend
    · -- a format chunk
      obtain ⟨hlen, bytes, hchunk, hdrop⟩ := @exists_chunk raw offset _ rfl (not_lt.1 hpad)
      rw [hfmt] at hchunk
      have hnone : fmt = none := by simpa using hdup
      rw [hdrop, hnone]
      exact .fmt hchunk (hlen.trans (not_not.1 h16)) (ih (not_lt.1 hpad) h)
    · -- a data chunk
      obtain ⟨-, bytes, hchunk, hdrop⟩ := @exists_chunk raw offset _ rfl (not_lt.1 hpad)
      rw [hdata] at hchunk
      have hnone : data = none := by simpa using hdup
      rw [hdrop, hnone]
      exact .data hchunk (ih (not_lt.1 hpad) h)
    · -- the end
      obtain ⟨rfl, rfl⟩ := Prod.mk.inj (Except.ok.inj h)
      rw [List.drop_of_length_le (by omega)]
      exact .done

/-- Chunks are what the loop reads, by induction on them. -/
theorem parseChunks_of_reads {fmt fmt' : Option Fmt} {data data' : Option (List UInt8)}
    {bytes : List UInt8} (h : Reads bytes fmt data fmt' data') (hdrop : raw.drop offset = bytes)
    (hoffset : offset ≤ raw.length) (hfuel : raw.length - offset < fuel) :
    parseChunks raw fuel offset fmt data = .ok (fmt', data') := by
  obtain ⟨fuel, rfl⟩ := Nat.exists_eq_succ_of_ne_zero (by omega : fuel ≠ 0)
  induction h generalizing offset fuel with
  | done =>
    have hend : offset = raw.length := by
      have := List.drop_eq_nil_iff.1 hdrop
      omega
    rw [parseChunks, if_neg (by omega), if_neg (not_not.2 hend)]
  | @fmt payload bytes rest data fmt' data' hchunk h16 _ ih =>
    obtain ⟨hid, hsize, hpayload, hrest, hlen⟩ := fields_of_chunk hchunk rfl hdrop
    rw [parseChunks, if_pos (by omega), if_neg (by omega)]
    dsimp only
    rw [hid, hsize, hpayload, if_neg (by omega), if_pos rfl, if_neg (by simp),
      if_neg (not_not.2 h16), if_neg (by omega)]
    obtain ⟨fuel, rfl⟩ := Nat.exists_eq_succ_of_ne_zero (by omega : fuel ≠ 0)
    exact ih hrest (by omega) fuel (by omega)
  | @data payload bytes rest fmt fmt' data' hchunk _ ih =>
    obtain ⟨hid, hsize, hpayload, hrest, hlen⟩ := fields_of_chunk hchunk rfl hdrop
    have hne : dataId ≠ fmtId := by decide
    rw [parseChunks, if_pos (by omega), if_neg (by omega)]
    dsimp only
    rw [hid, hsize, hpayload, if_neg (by omega), if_neg hne, if_pos rfl, if_neg (by simp),
      if_neg (by omega)]
    obtain ⟨fuel, rfl⟩ := Nat.exists_eq_succ_of_ne_zero (by omega : fuel ≠ 0)
    exact ih hrest (by omega) fuel (by omega)

theorem parseChunks_ok_iff {fmt fmt' : Option Fmt} {data data' : Option (List UInt8)}
    (hoffset : offset ≤ raw.length) (hfuel : raw.length - offset < fuel) :
    parseChunks raw fuel offset fmt data = .ok (fmt', data') ↔
      Reads (raw.drop offset) fmt data fmt' data' :=
  ⟨reads_of_parseChunks hoffset, fun h => parseChunks_of_reads h rfl hoffset hfuel⟩

/-- **The loop terminates**: every iteration takes a chunk header at least. -/
theorem parseChunks_terminates (hfuel : raw.length - offset < fuel) (fmt : Option Fmt)
    (data : Option (List UInt8)) : parseChunks raw fuel offset fmt data ≠ .error .outOfFuel := by
  induction fuel generalizing offset fmt data with
  | zero => omega
  | succ fuel ih =>
    unfold parseChunks
    dsimp only
    split_ifs with hmore hheader htrunc hfmt hdup h16 hpad hdata hdup hpad hextra hend
    · simp
    · simp
    · simp
    · simp
    · simp
    · exact ih (by omega) _ _
    · simp
    · simp
    · exact ih (by omega) _ _
    · simp
    · simp
    · simp
    · simp

end Loop

/-! ### Formats and samples -/

theorem length_packFmt (fmt : Fmt) : (packFmt fmt).length = 16 := by
  simp only [packFmt, List.length_append, length_toBytes]

theorem packFmt_unpackFmt {payload : List UInt8} (h : payload.length = 16) :
    packFmt (unpackFmt payload) = payload := by
  have hfield : ∀ a k, a + k ≤ 16 →
      toBytes k (ofBytes (slice payload a (a + k))) = slice payload a (a + k) := by
    intro a k hk
    apply toBytes_of_length
    rw [length_slice (by omega), Nat.add_sub_cancel_left]
  have hend : payload.drop 16 = [] := List.drop_of_length_le h.le
  simp only [packFmt, unpackFmt]
  rw [hfield 0 2 (by omega), hfield 2 2 (by omega), hfield 4 4 (by omega), hfield 8 4 (by omega),
    hfield 12 2 (by omega), hfield 14 2 (by omega), ← List.append_nil (slice payload 14 (14 + 2)),
    ← hend]
  simp only [List.append_assoc]
  rw [slice_append_drop (by omega), slice_append_drop (by omega), slice_append_drop (by omega),
    slice_append_drop (by omega), slice_append_drop (by omega), slice_append_drop (by omega),
    List.drop_zero]

theorem length_pcmBytes (values : List Int16) : (pcmBytes values).length = 2 * values.length := by
  induction values with
  | nil => rfl
  | cons x values ih =>
    rw [pcmBytes, List.flatMap_cons, ← pcmBytes, List.length_append, length_toBytes, ih,
      List.length_cons]
    omega

theorem int16s_pcmBytes (values : List Int16) : int16s (pcmBytes values) = values := by
  induction values with
  | nil => rfl
  | cons x values ih =>
    have hx : (UInt16.ofNat (ofBytes (toBytes 2 x.toUInt16.toNat))).toInt16 = x := by
      have hlt : x.toUInt16.toNat < 256 ^ 2 := x.toUInt16.toNat_lt
      rw [ofBytes_toBytes_of_lt hlt, UInt16.ofNat_toNat, Int16.toInt16_toUInt16]
    calc int16s (pcmBytes (x :: values))
        = (UInt16.ofNat (ofBytes (toBytes 2 x.toUInt16.toNat))).toInt16 ::
            int16s (pcmBytes values) := rfl
      _ = x :: values := by rw [hx, ih]

/-- Bytes in pairs are the samples that they mean. -/
theorem pcmBytes_int16s {data : List UInt8} {n : ℕ} (h : data.length = 2 * n) :
    pcmBytes (int16s data) = data := by
  induction n generalizing data with
  | zero =>
    rw [List.length_eq_zero_iff.1 h]
    rfl
  | succ n ih =>
    match data, h with
    | lo :: hi :: bytes, h =>
      simp only [List.length_cons] at h
      have hpair :
          toBytes 2 (UInt16.ofNat (ofBytes [lo, hi])).toInt16.toUInt16.toNat = [lo, hi] := by
        have hlo := lo.toNat_lt
        have hhi := hi.toNat_lt
        have hlt : ofBytes [lo, hi] < UInt16.size := by
          simp only [ofBytes, UInt16.size]
          omega
        rw [UInt16.toUInt16_toInt16, UInt16.toNat_ofNat_of_lt' hlt]
        exact toBytes_of_length rfl
      calc pcmBytes (int16s (lo :: hi :: bytes))
          = toBytes 2 (UInt16.ofNat (ofBytes [lo, hi])).toInt16.toUInt16.toNat ++
              pcmBytes (int16s bytes) := rfl
        _ = lo :: hi :: bytes := by
          rw [hpair, ih (by omega)]
          rfl

theorem reshape_spec {α : Type*} {frames channels : ℕ} {values : List α}
    (h : values.length = frames * channels) :
    (reshape frames channels values).flatten = values ∧
      ∀ row ∈ reshape frames channels values, row.length = channels := by
  induction frames generalizing values with
  | zero =>
    have hnil : values = [] := List.length_eq_zero_iff.1 (by rw [h, Nat.zero_mul])
    exact ⟨hnil.symm, fun row hrow => nomatch hrow⟩
  | succ frames ih =>
    rw [Nat.succ_mul] at h
    obtain ⟨hflatten, hrows⟩ := @ih (values.drop channels) (by rw [List.length_drop]; omega)
    refine ⟨?_, fun row hrow => ?_⟩
    · rw [reshape, List.flatten_cons, hflatten, List.take_append_drop]
    · rcases List.mem_cons.1 hrow with rfl | hrow
      · exact List.length_take_of_le (by omega)
      · exact hrows row hrow

theorem wavData_samples {channels : ℕ} (rate : ℕ) {values : List Int16}
    (h : values.length % channels = 0) :
    (wavData channels rate values).samples.flatten =
        values.map (fun x => (x.toInt : ℚ) / 32768) ∧
      ∀ row ∈ (wavData channels rate values).samples, row.length = channels := by
  have hwhole : values.length = values.length / channels * channels :=
    (Nat.div_mul_cancel (Nat.dvd_of_mod_eq_zero h)).symm
  obtain ⟨hflatten, hrows⟩ := reshape_spec hwhole
  constructor
  · rw [wavData, ← List.map_flatten, hflatten]
  · intro row hrow
    obtain ⟨ints, hints, rfl⟩ := List.mem_map.1 hrow
    rw [List.length_map, hrows ints hints]

/-! ### Exactness -/

section Exact

variable {raw data : List UInt8} {fmt : Fmt} {expected : Option ℤ}

theorem reads_iff {body : List UInt8} :
    Reads body none none (some fmt) (some data) ↔
      ∃ payload fmtChunk dataChunk, payload.length = 16 ∧ unpackFmt payload = fmt ∧
        IsChunk fmtId payload fmtChunk ∧ IsChunk dataId data dataChunk ∧
        (body = fmtChunk ++ dataChunk ∨ body = dataChunk ++ fmtChunk) := by
  constructor
  · intro h
    cases h with
    | fmt hfmt h16 h =>
      cases h with
      | data hdata h =>
        cases h with
        | done => exact ⟨_, _, _, h16, rfl, hfmt, hdata, .inl (by rw [List.append_nil])⟩
    | data hdata h =>
      cases h with
      | fmt hfmt h16 h =>
        cases h with
        | done => exact ⟨_, _, _, h16, rfl, hfmt, hdata, .inr (by rw [List.append_nil])⟩
  · rintro ⟨payload, fmtChunk, dataChunk, h16, rfl, hfmt, hdata, rfl | rfl⟩
    · rw [← List.append_nil dataChunk]
      exact .fmt hfmt h16 (.data hdata .done)
    · rw [← List.append_nil fmtChunk]
      exact .data hdata (.fmt hfmt h16 .done)

theorem fmtError_eq_none_iff :
    fmtError fmt data expected = none ↔
      fmt = pcmFmt fmt.channels ∧ (fmt.channels = 1 ∨ fmt.channels = 2) ∧
        (∀ e, expected = some e → e = fmt.channels) ∧
        data.length ≠ 0 ∧ data.length % (fmt.channels * 2) = 0 := by
  obtain ⟨audioFormat, channels, rate, byteRate, blockAlign, bits⟩ := fmt
  have hexpected : (∀ e, expected = some e → e = (channels : ℤ)) ↔
      ¬(expected ≠ none ∧ some (channels : ℤ) ≠ expected) := by
    cases expected with
    | none => simp
    | some e => simp [eq_comm]
  rw [hexpected]
  simp only [pcmFmt, Fmt.mk.injEq, true_and]
  constructor
  · intro h
    unfold fmtError at h
    split_ifs at h with h₁ h₂ h₃ h₄ h₅ h₆ h₇
    simp only at h₁ h₂ h₃ h₄ h₅ h₆ h₇
    have hbits : bits = sampleWidthBits := by
      by_contra hne
      exact h₅ (.inl hne)
    have halign : blockAlign = channels * sampleWidthBytes := by
      by_contra hne
      exact h₅ (.inr hne)
    have hrate : rate = sampleRate := not_not.1 h₄
    have hbyteRate : byteRate = rate * blockAlign := not_not.1 h₆
    rw [hrate, halign] at hbyteRate
    rw [halign] at h₇
    refine ⟨⟨not_not.1 h₁, hrate, hbyteRate, halign, hbits⟩, h₂, h₃, ?_, ?_⟩
    · exact fun h₀ => h₇ (.inl h₀)
    · by_contra hne
      exact h₇ (.inr hne)
  · rintro ⟨⟨rfl, rfl, rfl, rfl, rfl⟩, hchannels, hexpected, hpos, hwhole⟩
    rw [fmtError, if_neg (by simp), if_neg (not_not.2 hchannels), if_neg hexpected,
      if_neg (by simp), if_neg (by simp), if_neg (by simp), if_neg]
    rintro (h₀ | hrest)
    · exact hpos h₀
    · exact hrest hwhole

theorem fmtError_ne_outOfFuel : fmtError fmt data expected ≠ some .outOfFuel := by
  unfold fmtError
  split_ifs <;> simp

theorem header_iff :
    (¬(raw.length < 12 ∨ slice raw 0 4 ≠ riffId ∨ slice raw 8 12 ≠ waveId) ∧
      (ofBytes (slice raw 4 8) : ℤ) = raw.length - 8) ↔
    raw.length - 8 < 2 ^ 32 ∧
      raw = riffId ++ toBytes 4 (raw.length - 8) ++ waveId ++ raw.drop 12 := by
  constructor
  · rintro ⟨hheader, hsize⟩
    simp only [not_or, not_lt, not_not] at hheader
    obtain ⟨hlen, hriff, hwave⟩ := hheader
    have hfield : (slice raw 4 8).length = 4 := length_slice (by omega)
    have hsize : ofBytes (slice raw 4 8) = raw.length - 8 := by omega
    have hlt := ofBytes_lt (slice raw 4 8)
    rw [hfield, hsize] at hlt
    refine ⟨hlt, ?_⟩
    rw [← hsize, toBytes_of_length hfield, ← hriff, ← hwave, List.append_assoc, List.append_assoc,
      slice_append_drop (by omega), slice_append_drop (by omega), slice_append_drop (by omega),
      List.drop_zero]
  · rintro ⟨hlt, hraw⟩
    have hlen := congrArg List.length hraw
    simp only [List.length_append, length_toBytes, riffId, waveId, List.length_cons,
      List.length_nil] at hlen
    have hdrop :
        raw.drop 0 = riffId ++ (toBytes 4 (raw.length - 8) ++ (waveId ++ raw.drop 12)) := by
      rw [← List.append_assoc, ← List.append_assoc, ← hraw, List.drop_zero]
    obtain ⟨hriff, hdrop⟩ := slice_of_drop (b := 4) hdrop rfl
    obtain ⟨hsize, hdrop⟩ := slice_of_drop (b := 8) hdrop (by rw [length_toBytes])
    obtain ⟨hwave, -⟩ := slice_of_drop (b := 12) hdrop rfl
    refine ⟨?_, ?_⟩
    · rintro (h | h | h)
      · omega
      · exact h hriff
      · exact h hwave
    · rw [hsize, ofBytes_toBytes_of_lt hlt]
      omega

/-- What the chunks have to be for the parser to accept the file. -/
theorem parse_ok_iff_reads {w : WavData} :
    parseS16leWav raw expected = .ok w ↔
      (raw.length - 8 < 2 ^ 32 ∧
        raw = riffId ++ toBytes 4 (raw.length - 8) ++ waveId ++ raw.drop 12) ∧
      ∃ fmt data, Reads (raw.drop 12) none none (some fmt) (some data) ∧
        fmtError fmt data expected = none ∧ w = wavData fmt.channels fmt.rate (int16s data) := by
  rw [← header_iff]
  by_cases hheader : raw.length < 12 ∨ slice raw 0 4 ≠ riffId ∨ slice raw 8 12 ≠ waveId
  · rw [parseS16leWav, if_pos hheader]
    exact Iff.intro (fun h => nomatch h) (fun h => absurd hheader h.1.1)
  · by_cases hsize : (ofBytes (slice raw 4 8) : ℤ) ≠ raw.length - 8
    · rw [parseS16leWav, if_neg hheader, if_pos hsize]
      exact Iff.intro (fun h => nomatch h) (fun h => absurd h.1.2 hsize)
    · have hreads : ∀ fmt data, parseChunks raw (raw.length + 1) 12 none none = .ok (fmt, data) ↔
          Reads (raw.drop 12) none none fmt data := by
        intro fmt data
        simp only [not_or, not_lt] at hheader
        exact parseChunks_ok_iff hheader.1 (by omega)
      simp only [← hreads]
      rw [parseS16leWav, if_neg hheader, if_neg hsize]
      simp only [bind, Except.bind]
      constructor
      · intro h
        refine ⟨⟨hheader, not_not.1 hsize⟩, ?_⟩
        split at h
        · cases h
        · rename_i read hread
          split at h
          · rename_i fmt data
            split at h
            · cases h
            · rename_i hnone
              exact ⟨fmt, data, hread, hnone, (Except.ok.inj h).symm⟩
          · cases h
      · rintro ⟨-, fmt, data, hread, hnone, rfl⟩
        rw [hread]
        dsimp only
        rw [hnone]

theorem whole_frames {channels : ℕ} (hchannels : channels = 1 ∨ channels = 2)
    (hpos : data.length ≠ 0) (hwhole : data.length % (channels * 2) = 0) :
    pcmBytes (int16s data) = data ∧ int16s data ≠ [] ∧ (int16s data).length % channels = 0 := by
  have heven : data.length = 2 * (data.length / 2) := by
    rcases hchannels with rfl | rfl <;> omega
  have hbytes := pcmBytes_int16s heven
  have hlen := length_pcmBytes (int16s data)
  rw [hbytes] at hlen
  refine ⟨hbytes, ?_, ?_⟩
  · intro hnil
    rw [hnil] at hlen
    exact hpos hlen
  · rcases hchannels with rfl | rfl <;> omega

theorem unpackFmt_pcmFmt {channels : ℕ} (hchannels : channels = 1 ∨ channels = 2) :
    unpackFmt (packFmt (pcmFmt channels)) = pcmFmt channels := by
  rcases hchannels with rfl | rfl <;> decide

/-- **The parser of the capture files.**  It accepts exactly the strict files with the expected
number of channels, and returns their samples in order; and its loop ends for every input. -/
theorem parseS16leWav_iff (raw : List UInt8) (expected : Option ℤ) :
    (∀ w, parseS16leWav raw expected = .ok w ↔
      ∃ channels values, IsWav raw channels values ∧
        (∀ e, expected = some e → e = (channels : ℤ)) ∧
        w = wavData channels sampleRate values) ∧
    (∀ channels values, IsWav raw channels values →
      (wavData channels sampleRate values).samples.flatten =
          values.map (fun x => (x.toInt : ℚ) / 32768) ∧
        ∀ row ∈ (wavData channels sampleRate values).samples, row.length = channels) ∧
    parseS16leWav raw expected ≠ .error .outOfFuel := by
  refine ⟨?_, fun channels values h => wavData_samples sampleRate h.2.2.1, ?_⟩
  · intro w
    rw [parse_ok_iff_reads]
    constructor
    · rintro ⟨⟨hlt, hraw⟩, fmt, data, hreads, hcheck, rfl⟩
      obtain ⟨hfmt, hchannels, hexpected, hpos, hwhole⟩ := fmtError_eq_none_iff.1 hcheck
      -- what the loop has read, as the two chunks of the file
      obtain ⟨payload, fmtChunk, dataChunk, h16, rfl, hfmtChunk, hdataChunk, hbody⟩ :=
        reads_iff.1 hreads
      obtain ⟨hbytes, hne, hmod⟩ := whole_frames hchannels hpos hwhole
      have hpayload : payload = packFmt (pcmFmt (unpackFmt payload).channels) := by
        rw [← hfmt, packFmt_unpackFmt h16]
      have hrate : (unpackFmt payload).rate = sampleRate := by rw [hfmt, pcmFmt]
      refine ⟨(unpackFmt payload).channels, int16s data, ⟨hchannels, hne, hmod, hlt, fmtChunk,
        dataChunk, hpayload ▸ hfmtChunk, hbytes.symm ▸ hdataChunk, ?_⟩, hexpected, by rw [hrate]⟩
      rcases hbody with hbody | hbody
      · exact .inl (by rw [List.append_assoc, ← hbody, ← hraw])
      · exact .inr (by rw [List.append_assoc, ← hbody, ← hraw])
    · rintro ⟨channels, values, ⟨hchannels, hne, hmod, hlt, fmtChunk, dataChunk, hfmtChunk,
        hdataChunk, hraw⟩, hexpected, rfl⟩
      -- the two chunks come in either order
      obtain ⟨body, hbody, hraw⟩ : ∃ body,
          (body = fmtChunk ++ dataChunk ∨ body = dataChunk ++ fmtChunk) ∧
          raw = riffId ++ toBytes 4 (raw.length - 8) ++ waveId ++ body := by
        rcases hraw with hraw | hraw
        · exact ⟨_, .inl rfl, by rw [← List.append_assoc, ← hraw]⟩
        · exact ⟨_, .inr rfl, by rw [← List.append_assoc, ← hraw]⟩
      have hfront : (riffId ++ toBytes 4 (raw.length - 8) ++ waveId).length = 12 := by
        rw [List.length_append, List.length_append, length_toBytes]
        rfl
      have hdrop := congrArg (List.drop 12) hraw
      rw [List.drop_left' hfront] at hdrop
      have hlen := length_pcmBytes values
      have hpos := List.length_pos_of_ne_nil hne
      refine ⟨⟨hlt, by rw [hdrop, ← hraw]⟩, pcmFmt channels, pcmBytes values,
        reads_iff.2 ⟨_, fmtChunk, dataChunk, length_packFmt _, unpackFmt_pcmFmt hchannels,
          hfmtChunk, hdataChunk, hdrop ▸ hbody⟩, ?_, ?_⟩
      · refine fmtError_eq_none_iff.2 ⟨rfl, hchannels, hexpected, by omega, ?_⟩
        show _ % (channels * 2) = 0
        rcases hchannels with rfl | rfl <;> omega
      · rw [int16s_pcmBytes]
        rfl
  · unfold parseS16leWav
    split_ifs with hheader hsize
    · simp
    · simp
    · simp only [not_or, not_lt] at hheader
      -- no other error of the parser is the one of the fuel
      have hloop : parseChunks raw (raw.length + 1) 12 none none ≠ .error .outOfFuel :=
        parseChunks_terminates (by omega) none none
      simp only [bind, Except.bind]
      split
      · rename_i e herror
        rw [herror] at hloop
        intro heq
        exact hloop (congrArg Except.error (Except.error.inj heq))
      · split
        · rename_i fmt data
          split
          · rename_i e he
            intro heq
            rw [Except.error.inj heq] at he
            exact fmtError_ne_outOfFuel he
          · simp
        · simp

/-- A stereo file of two frames, with its data first. -/
def twoFrames : List UInt8 :=
  riffId ++ toBytes 4 44 ++ waveId ++
    (dataId ++ toBytes 4 8 ++ [0x00, 0x80, 0x00, 0x40, 0x00, 0x00, 0x00, 0x01]) ++
    (fmtId ++ toBytes 4 16 ++ packFmt (pcmFmt 2))

theorem parseS16leWav_iff_twoFrames :
    parseS16leWav twoFrames (some 2) = .ok (wavData 2 sampleRate [-32768, 16384, 0, 256]) ∧
      (wavData 2 sampleRate [-32768, 16384, 0, 256]).samples = [[-1, 1 / 2], [0, 1 / 128]] := by
  refine ⟨((parseS16leWav_iff twoFrames (some 2)).1 _).2
    ⟨2, [-32768, 16384, 0, 256], ?_, ?_, rfl⟩, ?_⟩
  · refine ⟨.inr rfl, by decide, by decide, by decide, fmtId ++ toBytes 4 16 ++ packFmt (pcmFmt 2),
      dataId ++ toBytes 4 8 ++ [0x00, 0x80, 0x00, 0x40, 0x00, 0x00, 0x00, 0x01],
      ⟨by decide, [], by decide, by decide⟩, ⟨by decide, [], by decide, by decide⟩,
      .inr (by decide)⟩
  · intro e he
    exact (Option.some.inj he).symm
  · decide +kernel

end Exact

end Wav

end Hil

end LeAudioReceiver
