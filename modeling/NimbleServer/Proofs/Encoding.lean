import NimbleServer.Lib.Fitting
import NimbleServer.Lib.Format
import NimbleServer.Model.Composing

/-!
# `NimbleServer.Proofs.Encoding`: the octets of an authoritative step

An authoritative step is an octet with the number of entries, followed by the entries. An
entry starts with the id of the participant. Its top bit says whether a type follows; a
normal entry has none. A normal entry and a joined entry carry a payload, after an octet with
its length, and a joined entry carries the id of the party before that.

`encodeStep` and `decodeStep` are this format. A step that was encoded decodes to its entries
(`decodeStep_encodeStep`), so the octets that the server writes say what its entries are. The
source's writer checks the first write of an entry only, so an entry is a record in the sense
of `Lib.Fitting` (`writeParticipantStep_eq`), and its octets are those of the format
(`symbols_entryRecord`).
-/

set_option autoImplicit false

namespace NimbleServer

open NimbleServer.Lib

variable {E : External} {S : Setup}

/-! ### Entries -/

/-- What an authoritative step says about one participant. -/
inductive EntryContent
  | normal (payload : List UInt8)
  | stepNotProvidedInTime
  | waitingForReJoin
  | joined (partyId : UInt8) (payload : List UInt8)
  | left
deriving DecidableEq, Repr

/-- One entry of an authoritative step. -/
structure StepEntry where
  participantId : UInt8
  content : EntryContent
deriving DecidableEq, Repr

/-- The type of an entry. -/
def EntryContent.stepType : EntryContent → StepType
  | .normal _ => .normal
  | .stepNotProvidedInTime => .stepNotProvidedInTime
  | .waitingForReJoin => .waitingForReJoin
  | .joined _ _ => .joined
  | .left => .left

/-- The payload of an entry, which is empty for an entry that carries none. -/
def EntryContent.payload : EntryContent → List UInt8
  | .normal payload | .joined _ payload => payload
  | .stepNotProvidedInTime | .waitingForReJoin | .left => []

/-- The format has seven bits for the id and one octet for the length. -/
structure StepEntry.Fits (entry : StepEntry) : Prop where
  participantId : entry.participantId.toNat < 128
  payload : entry.content.payload.length < 256

/-! ### The format -/

/-- A length and as many octets. -/
def encodePayload (payload : List UInt8) : List UInt8 :=
  UInt8.ofNat payload.length :: payload

/-- The octets of an entry. Only a normal entry has the top bit of its first octet clear. -/
def encodeEntry (E : External) (entry : StepEntry) : List UInt8 :=
  match entry.content with
  | .normal payload => entry.participantId :: encodePayload payload
  | .joined partyId payload =>
    (0x80 ||| entry.participantId) :: E.stepTypeOctet .joined :: partyId ::
      encodePayload payload
  | content => [0x80 ||| entry.participantId, E.stepTypeOctet content.stepType]

/-- The number of entries and the entries, one after the other. -/
def encodeStep (E : External) (entries : List StepEntry) : List UInt8 :=
  UInt8.ofNat entries.length :: entries.flatMap (encodeEntry E)

/-- A payload, and the octets after it. It fails if there are fewer than the length says. -/
def decodePayload : List UInt8 → Option (List UInt8 × List UInt8)
  | [] => none
  | length :: rest =>
    if length.toNat ≤ rest.length then some (rest.take length.toNat, rest.drop length.toNat)
    else none

/-- The part of an entry after the octet that names its type. -/
def decodeContent (E : External) (type : UInt8) (rest : List UInt8) :
    Option (EntryContent × List UInt8) :=
  if type = E.stepTypeOctet .stepNotProvidedInTime then some (.stepNotProvidedInTime, rest)
  else if type = E.stepTypeOctet .waitingForReJoin then some (.waitingForReJoin, rest)
  else if type = E.stepTypeOctet .left then some (.left, rest)
  else if type = E.stepTypeOctet .joined then
    match rest with
    | [] => none
    | partyId :: rest =>
      (decodePayload rest).map fun (payload, rest) => (.joined partyId payload, rest)
  else none

/-- An entry, and the octets after it. -/
def decodeEntry (E : External) : List UInt8 → Option (StepEntry × List UInt8)
  | [] => none
  | first :: rest =>
    if first.toNat < 128 then
      (decodePayload rest).map fun (payload, rest) => (⟨first, .normal payload⟩, rest)
    else
      match rest with
      | [] => none
      | type :: rest =>
        (decodeContent E type rest).map fun (content, rest) => (⟨first &&& 0x7f, content⟩, rest)

/-- The entries of a step, if the octets are those of one. -/
def decodeStep (E : External) : List UInt8 → Option (List StepEntry)
  | [] => none
  | count :: rest =>
    match decodeMany (decodeEntry E) count.toNat rest with
    | some (entries, []) => some entries
    | _ => none

/-- The number of octets of an entry. -/
def StepEntry.size (entry : StepEntry) : Nat :=
  match entry.content with
  | .normal payload => 2 + payload.length
  | .joined _ payload => 4 + payload.length
  | .stepNotProvidedInTime | .waitingForReJoin | .left => 2

/-- The size of an entry is the number of its octets. -/
theorem length_encodeEntry (entry : StepEntry) : (encodeEntry E entry).length = entry.size := by
  obtain ⟨id, content⟩ := entry
  cases content with
  | normal payload | joined partyId payload =>
    simp only [encodeEntry, encodePayload, StepEntry.size, List.length_cons]
    omega
  | stepNotProvidedInTime | waitingForReJoin | left => rfl

/-- A step has one octet more than its entries. -/
theorem length_encodeStep (entries : List StepEntry) :
    (encodeStep E entries).length = 1 + (entries.map StepEntry.size).sum := by
  unfold encodeStep
  rw [List.length_cons, List.length_flatMap, Nat.add_comm]
  simp only [length_encodeEntry]

/-! ### Decoding what was encoded -/

/-- A payload whose length fits an octet is read back. -/
theorem decodePayload_encodePayload {payload : List UInt8} (h : payload.length < 256)
    (rest : List UInt8) :
    decodePayload (encodePayload payload ++ rest) = some (payload, rest) := by
  have hlength : (UInt8.ofNat payload.length).toNat = payload.length :=
    UInt8.toNat_ofNat_of_lt' h
  have hfits : payload.length ≤ (payload ++ rest).length := by
    rw [List.length_append]
    omega
  -- The length octet says how many octets to take, and there are at least so many.
  show (if (UInt8.ofNat payload.length).toNat ≤ (payload ++ rest).length then
    some ((payload ++ rest).take (UInt8.ofNat payload.length).toNat,
      (payload ++ rest).drop (UInt8.ofNat payload.length).toNat) else none) = _
  rw [hlength, if_pos hfits, List.take_left, List.drop_left]

/-- The top bit marks an entry with a type, and the other bits are the id. -/
theorem marked_toNat {id : UInt8} (h : id.toNat < 128) :
    ¬(0x80 ||| id).toNat < 128 ∧ (0x80 ||| id) &&& 0x7f = id := by
  -- There are only 128 ids, and each of them is looked at.
  have hall : ∀ n : Fin 128, ¬(0x80 ||| UInt8.ofNat n.val).toNat < 128 ∧
      (0x80 ||| UInt8.ofNat n.val) &&& 0x7f = UInt8.ofNat n.val := by decide
  have hid := hall ⟨id.toNat, h⟩
  rw [UInt8.ofNat_toNat] at hid
  exact hid

/-- An entry that fits the format is read back. The octets of the types are different, so the
type that was written is the one that is read. -/
theorem readsBack_entry [LawfulStepTypes E] {entry : StepEntry} (h : entry.Fits) :
    ReadsBack (encodeEntry E) (decodeEntry E) entry := by
  obtain ⟨id, content⟩ := entry
  obtain ⟨hid, hpayload⟩ := h
  intro rest
  -- The decoder compares octets, so this decides each of its comparisons.
  have hinj : ∀ a b : StepType, E.stepTypeOctet a = E.stepTypeOctet b ↔ a = b :=
    fun a b => LawfulStepTypes.stepTypeOctet_injective.eq_iff
  have hread : ∀ payload : List UInt8, payload.length < 256 →
      decodePayload (encodePayload payload ++ rest) = some (payload, rest) :=
    fun _ hlength => decodePayload_encodePayload hlength rest
  obtain ⟨hmarked, hmask⟩ := marked_toNat hid
  cases content with
  | normal payload =>
    show (if id.toNat < 128 then
      (decodePayload (encodePayload payload ++ rest)).map _ else _) = _
    rw [if_pos hid, hread payload hpayload]
    rfl
  | joined partyId payload =>
    show (if (0x80 ||| id).toNat < 128 then _ else (decodeContent E (E.stepTypeOctet .joined)
      (partyId :: (encodePayload payload ++ rest))).map _) = _
    rw [if_neg hmarked]
    unfold decodeContent
    simp [hinj, hmask, hread payload hpayload]
  | stepNotProvidedInTime | waitingForReJoin | left =>
    show (if (0x80 ||| id).toNat < 128 then _ else (decodeContent E _ rest).map _) = _
    rw [if_neg hmarked]
    unfold decodeContent
    simp [hinj, hmask, EntryContent.stepType]

/-- A step of fewer than 256 entries that fit the format decodes to its entries. -/
theorem decodeStep_encodeStep [LawfulStepTypes E] {entries : List StepEntry}
    (hcount : entries.length < 256) (hfits : ∀ entry ∈ entries, entry.Fits) :
    decodeStep E (encodeStep E entries) = some entries := by
  have hlength : (UInt8.ofNat entries.length).toNat = entries.length :=
    UInt8.toNat_ofNat_of_lt' hcount
  have hread : ∀ entry ∈ entries, ReadsBack (encodeEntry E) (decodeEntry E) entry :=
    fun entry hentry => readsBack_entry (hfits entry hentry)
  have hentries := decodeMany_flatMap entries hread []
  rw [List.append_nil] at hentries
  unfold decodeStep encodeStep
  simp only [hlength, hentries]

/-! ### Writing an entry -/

/-- The part of the octets whose number fits the octet that counts them. -/
def countedOctets (octets : List UInt8) : List UInt8 :=
  octets.take (UInt8.ofNat octets.length).toNat

/-- There are as many of them as the octet says, -/
theorem length_countedOctets (octets : List UInt8) :
    (countedOctets octets).length = (UInt8.ofNat octets.length).toNat := by
  -- The length octet is the length modulo 256.
  have hle : (UInt8.ofNat octets.length).toNat ≤ octets.length := by
    rw [UInt8.toNat_ofNat']
    exact Nat.mod_le _ _
  unfold countedOctets
  rw [List.length_take, Nat.min_eq_left hle]

/-- and they are all octets if the octet can count them. -/
theorem countedOctets_of_lt {octets : List UInt8} (h : octets.length < 256) :
    countedOctets octets = octets := by
  unfold countedOctets
  rw [UInt8.toNat_ofNat_of_lt' h, List.take_length]

/-- What the source writes for a type, a party and the octets it read. -/
def entryContent (stepType : StepType) (partyId : UInt8) (octets : List UInt8) : EntryContent :=
  match stepType with
  | .normal => .normal (countedOctets octets)
  | .stepNotProvidedInTime => .stepNotProvidedInTime
  | .waitingForReJoin => .waitingForReJoin
  | .joined => .joined partyId (countedOctets octets)
  | .left => .left

/-- The entry has the type for which it is written. -/
theorem entryContent_stepType (stepType : StepType) (partyId : UInt8) (octets : List UInt8) :
    (entryContent stepType partyId octets).stepType = stepType := by
  cases stepType <;> rfl

/-- The payload of a written entry always fits its length octet, since it is cut. -/
theorem entryContent_payload_length (stepType : StepType) (partyId : UInt8)
    (octets : List UInt8) : (entryContent stepType partyId octets).payload.length < 256 := by
  have hcounted : (countedOctets octets).length < 256 := by
    rw [length_countedOctets]
    exact UInt8.toNat_lt _
  cases stepType with
  | normal | joined => exact hcounted
  | stepNotProvidedInTime | waitingForReJoin | left => exact Nat.zero_lt_succ _

/-- An entry as the source writes it: the result of the first write is checked, those of the
others are not. -/
def entryRecord (E : External) (entry : StepEntry) : Record UInt8 :=
  match entry.content with
  | .normal payload =>
    { first := entry.participantId, rest := [[UInt8.ofNat payload.length], payload] }
  | .joined partyId payload =>
    { first := 0x80 ||| entry.participantId
      rest := [[E.stepTypeOctet .joined], [partyId], [UInt8.ofNat payload.length], payload] }
  | content =>
    { first := 0x80 ||| entry.participantId, rest := [[E.stepTypeOctet content.stepType]] }

/-- The octets of the record are those of the format. -/
theorem symbols_entryRecord (entry : StepEntry) :
    (entryRecord E entry).symbols = encodeEntry E entry := by
  obtain ⟨id, content⟩ := entry
  cases content with
  | normal payload | joined partyId payload =>
    simp [entryRecord, encodeEntry, encodePayload, Record.symbols, Record.parts]
  | stepNotProvidedInTime | waitingForReJoin | left => rfl

section Writes

variable [hstreams : LawfulOutStreams E] (buffer : List UInt8) (capacity : Nat)

/-- A write whose result is not checked. -/
theorem snd_fldOutStreamWriteOctets (octets : List UInt8) :
    (E.fldOutStreamWriteOctets ⟨buffer, capacity, false⟩ octets).2
      = ⟨writePart capacity buffer octets, capacity, false⟩ := by
  unfold writePart
  by_cases hroom : buffer.length + octets.length ≤ capacity
  · rw [if_pos hroom]
    exact (hstreams.writeOctets_ok ⟨buffer, capacity, false⟩ octets rfl hroom).2
  · rw [if_neg hroom]
    exact (hstreams.writeOctets_full ⟨buffer, capacity, false⟩ octets rfl
      (Nat.lt_of_not_le hroom)).2

/-- An octet whose write is not checked is a part of one octet. -/
theorem snd_fldOutStreamWriteUInt8 (octet : UInt8) :
    (E.fldOutStreamWriteUInt8 ⟨buffer, capacity, false⟩ octet).2
      = ⟨writePart capacity buffer [octet], capacity, false⟩ := by
  rw [hstreams.writeUInt8_eq _ _ rfl, snd_fldOutStreamWriteOctets]

/-- An octet fits as long as the stream is not full. -/
theorem fldOutStreamWriteUInt8_neg_iff (octet : UInt8) :
    (E.fldOutStreamWriteUInt8 ⟨buffer, capacity, false⟩ octet).1 < 0
      ↔ ¬buffer.length < capacity := by
  rw [hstreams.writeUInt8_eq _ _ rfl]
  by_cases hroom : buffer.length < capacity
  · have hok := (hstreams.writeOctets_ok ⟨buffer, capacity, false⟩ [octet] rfl hroom).1
    exact iff_of_false (Int.not_lt.mpr hok) (not_not.mpr hroom)
  · have hfull := (hstreams.writeOctets_full ⟨buffer, capacity, false⟩ [octet] rfl
      (Nat.lt_of_not_le hroom)).1
    exact iff_of_true hfull hroom

end Writes

/-- The stream after an entry. -/
def writeEntry (E : External) (stream : OutStream) (entry : StepEntry) : Option OutStream :=
  (writeRecord stream.capacity stream.octets (entryRecord E entry)).map
    fun octets => { stream with octets }

/-- An entry does not switch the debug info of the stream on. -/
theorem writeDebugInfo_writeEntry {stream stream' : OutStream} {entry : StepEntry}
    (h : writeEntry E stream entry = some stream') :
    stream'.writeDebugInfo = stream.writeDebugInfo := by
  obtain ⟨octets, -, rfl⟩ := Option.map_eq_some_iff.mp h
  rfl

/-- The writer of entries writes a record. -/
theorem writeParticipantStep_eq [LawfulOutStreams E] {stream : OutStream}
    (hdebug : stream.writeDebugInfo = false) (participantId : UInt8) (stepType : StepType)
    (partyId : UInt8) (octets : List UInt8) :
    writeParticipantStep E stream participantId stepType partyId octets
      = writeEntry E stream ⟨participantId, entryContent stepType partyId octets⟩ := by
  have hcounted : UInt8.ofNat (countedOctets octets).length = UInt8.ofNat octets.length := by
    rw [length_countedOctets, UInt8.ofNat_toNat]
  have htaken : octets.take (UInt8.ofNat octets.length).toNat = countedOctets octets := rfl
  obtain ⟨buffer, capacity, writeDebugInfo⟩ := stream
  obtain rfl : writeDebugInfo = false := hdebug
  unfold writeParticipantStep writeEntry writeRecord
  dsimp only
  by_cases hroom : buffer.length < capacity
  · -- The first octet fits, and the other writes are not checked.
    rw [if_neg fun h => (fldOutStreamWriteUInt8_neg_iff buffer capacity _).mp h hroom,
      if_pos hroom]
    cases stepType with
    -- A normal entry has no mask and no type octet.
    | normal =>
      simp only [stepTypeMask, if_true, UInt8.zero_or, reduceCtorEq, if_false, true_or,
        snd_fldOutStreamWriteUInt8, snd_fldOutStreamWriteOctets, htaken]
      rw [← hcounted]
      rfl
    | joined =>
      simp only [stepTypeMask, reduceCtorEq, if_false, if_true, or_true,
        snd_fldOutStreamWriteUInt8, snd_fldOutStreamWriteOctets, htaken]
      rw [← hcounted]
      rfl
    -- These entries end with their type.
    | stepNotProvidedInTime | waitingForReJoin | left =>
      simp only [stepTypeMask, reduceCtorEq, if_false, or_self, snd_fldOutStreamWriteUInt8]
      rfl
  · rw [if_pos ((fldOutStreamWriteUInt8_neg_iff buffer capacity _).mpr hroom), if_neg hroom]
    rfl

/-- The stream after entries that were written one after the other. -/
def writeEntries (E : External) (stream : OutStream) (entries : List StepEntry) :
    Option OutStream :=
  (writeRecords stream.capacity stream.octets (entries.map (entryRecord E))).map
    fun octets => { stream with octets }

/-- The entries after the first go to the stream that it leaves. -/
theorem writeEntries_cons (stream : OutStream) (entry : StepEntry) (entries : List StepEntry) :
    writeEntries E stream (entry :: entries)
      = (writeEntry E stream entry).bind fun stream => writeEntries E stream entries := by
  unfold writeEntries writeEntry
  rw [List.map_cons, writeRecords]
  cases writeRecord stream.capacity stream.octets (entryRecord E entry) with
  | none => rfl
  | some octets => rfl

/-- The octets of the records of several entries. -/
theorem flatMap_symbols_entryRecord (entries : List StepEntry) :
    (entries.map (entryRecord E)).flatMap Record.symbols = entries.flatMap (encodeEntry E) := by
  rw [List.flatMap_map]
  simp only [symbols_entryRecord]

end NimbleServer
