import Usdd.ProofCore.Annex
import Usdd.TypeScript.ClaimLaws
import Usdd.TypeScript.Envelopes
/-!
# The client's envelopes are the crate's

The client dispatches on the header of a payload where the crate tries one record after another,
and reads journals by slices where the crate reads field by field. What it accepts it writes
again, so a decoded envelope is one that its encoder writes, and that is one of the crate's.
-/
namespace Usdd.TypeScript

open Usdd.Foundation Usdd.Core Usdd.ProofCore

section TypedPayloads

/-- Typed public values of the crate in the client. -/
def TypedPublicValues.ofCore : ProofCore.TypedPublicValues → TypedPublicValues
  | .deposit output => .deposit (.ofCore output)
  | .heartbeat output => .heartbeat (.ofCore output)
  | .elementsState output => .elementsState (.ofCore output)

theorem readUintBe_u16 (value : UInt16) : readUintBe (encode value) = value.toNat := by
  rw [readUintBe_eq]
  exact congrArg Nat.cast (beNat_beBytes_of_lt value.toNat_lt)

/-- A record of the current schema is dispatched by its tag. -/
theorem decodeTypedPublicValues_header {statementKind : Nat} {tag : UInt16}
    {rest : List UInt8} :
    decodeTypedPublicValues statementKind (encodeHeader tag ++ rest) =
      if statementKind = 1 ∧ (tag.toNat : Int) = 0x5201 then
        do return .deposit (← decodeDepositPublicOutput (encodeHeader tag ++ rest))
      else if statementKind = 1 ∧ (tag.toNat : Int) = 0x5204 then
        do return .heartbeat (← decodeHeartbeatPublicOutput (encodeHeader tag ++ rest))
      else if statementKind = 2 ∧ (tag.toNat : Int) = 0x5203 then
        do return .elementsState (← decodeElementsStatePublicOutput (encodeHeader tag ++ rest))
      else throw "journal payload is not allowed for its statement kind" := by
  have whole : encodeHeader tag ++ rest = [encode Core.encodingSchema, encode tag, rest].flatten := by
    simp [encodeHeader]
  have cut := pieces_flatten [encode Core.encodingSchema, encode tag, rest]
  rw [← whole] at cut
  simp only [List.map_cons, List.map_nil, encode_u16_length, pieces, List.cons.injEq] at cut
  have schema : readUintBe (slice (encodeHeader tag ++ rest) 0 2) = encodingSchema := by
    have found : slice (encodeHeader tag ++ rest) 0 2 = encode Core.encodingSchema := cut.1
    rw [found, readUintBe_u16]
    rfl
  have number : readUintBe (slice (encodeHeader tag ++ rest) 2 4) = tag.toNat := by
    have found : slice (encodeHeader tag ++ rest) 2 4 = encode tag := cut.2.1
    rw [found, readUintBe_u16]
  have long : ¬(encodeHeader tag ++ rest).length < 4 := by
    rw [List.length_append, encodeHeader_length]
    omega
  have passed (next : Unit → Except String TypedPublicValues) :
      (Except.ok () >>= next) = next () := rfl
  simp only [decodeTypedPublicValues, schema, number, rejectIf, long, if_false, ne_eq,
    not_true_eq_false, passed]

variable [Hashing] (canonical : (emptyBurnNode 64).bytes = emptyBurnRoot)
include canonical

/-- The client reads the payloads of a kind that the crate reads. -/
theorem decodeTypedPublicValues_ofCore {kind : StatementKind} {payload : List UInt8}
    {value : TypedPublicValues} :
    decodeTypedPublicValues kind.tag.toNat payload = .ok value ↔
      ∃ core, ProofCore.TypedPublicValues.decode kind payload = .ok core ∧ value = .ofCore core := by
  have deposit := agrees_depositPublicOutput.accepts payload
  have heartbeat := agrees_heartbeatPublicOutput.accepts payload
  have elements := (agrees_elementsStatePublicOutput canonical).accepts payload
  have first : kind.tag.toNat = 1 ↔ kind = .ethereumState := by cases kind <;> decide
  have second : kind.tag.toNat = 2 ↔ kind = .elementsState := by cases kind <;> decide
  simp only [TypedPublicValues.decode_eq_ok]
  constructor
  · intro decoded
    simp only [decodeTypedPublicValues] at decoded
    simp only [↓then_eq_ok] at decoded
    obtain ⟨-, -, dispatched⟩ := decoded
    split at dispatched
    · rename_i which
      obtain ⟨found, read, returned⟩ := (bind_eq_ok _ _ _).mp dispatched
      obtain ⟨output, accepted, rfl⟩ := (deposit found).mp read
      obtain rfl := (pure_eq_ok _ _).mp returned
      obtain ⟨valid, written⟩ := Core.decodeExact_eq_ok.mp accepted
      exact ⟨.deposit output, ⟨valid, (first.mp which.1).symm, written⟩, rfl⟩
    · split at dispatched
      · rename_i which
        obtain ⟨found, read, returned⟩ := (bind_eq_ok _ _ _).mp dispatched
        obtain ⟨output, accepted, rfl⟩ := (heartbeat found).mp read
        obtain rfl := (pure_eq_ok _ _).mp returned
        obtain ⟨valid, written⟩ := Core.decodeExact_eq_ok.mp accepted
        exact ⟨.heartbeat output, ⟨valid, (first.mp which.1).symm, written⟩, rfl⟩
      · split at dispatched
        · rename_i which
          obtain ⟨found, read, returned⟩ := (bind_eq_ok _ _ _).mp dispatched
          obtain ⟨output, accepted, rfl⟩ := (elements found).mp read
          obtain rfl := (pure_eq_ok _ _).mp returned
          obtain ⟨valid, written⟩ := Core.decodeExact_eq_ok.mp accepted
          exact ⟨.elementsState output, ⟨valid, (second.mp which.1).symm, written⟩, rfl⟩
        · cases dispatched
  · rintro ⟨core, ⟨valid, rfl, rfl⟩, rfl⟩
    cases core with
    | deposit output =>
      have read := (deposit _).mpr ⟨output, Core.decodeExact_eq_ok.mpr ⟨valid, rfl⟩, rfl⟩
      have split : (ProofCore.TypedPublicValues.deposit output).encode =
          encodeHeader tagDepositPublicOutput ++ _ := List.flatten_cons
      rw [split] at read ⊢
      rw [decodeTypedPublicValues_header, if_pos ⟨rfl, rfl⟩, read]
      rfl
    | heartbeat output =>
      have read := (heartbeat _).mpr ⟨output, Core.decodeExact_eq_ok.mpr ⟨valid, rfl⟩, rfl⟩
      have split : (ProofCore.TypedPublicValues.heartbeat output).encode =
          encodeHeader tagHeartbeatPublicOutput ++ _ := List.flatten_cons
      rw [split] at read ⊢
      have other : ¬(tagHeartbeatPublicOutput.toNat : Int) = 0x5201 := by decide
      rw [decodeTypedPublicValues_header, if_neg fun both => other both.2, if_pos ⟨rfl, rfl⟩, read]
      rfl
    | elementsState output =>
      have read := (elements _).mpr ⟨output, Core.decodeExact_eq_ok.mpr ⟨valid, rfl⟩, rfl⟩
      have split : (ProofCore.TypedPublicValues.elementsState output).encode =
          encodeHeader tagElementsStatePublicOutput ++ _ := List.flatten_cons
      rw [split] at read ⊢
      have first : ¬(tagElementsStatePublicOutput.toNat : Int) = 0x5201 := by decide
      have second : ¬(tagElementsStatePublicOutput.toNat : Int) = 0x5204 := by decide
      rw [decodeTypedPublicValues_header, if_neg fun both => first both.2,
        if_neg fun both => second both.2, if_pos ⟨rfl, rfl⟩, read]
      rfl

end TypedPayloads

section Journals

variable [Hashing]

/-- A journal of the crate in the client, which keeps no digest. -/
def StrictJournal.ofCore (journal : ProofCore.StrictJournal) : StrictJournal where
  statementKind := journal.statementKind.tag.toNat
  programId := journal.programId.bytes
  payload := journal.payload

omit [Hashing] in
/-- The client's statement kinds are the crate's. -/
theorem tag_cases {number : Nat} : ¬(number ≠ 1 ∧ number ≠ 2) ↔
    ∃ kind : StatementKind, number = kind.tag.toNat := by
  constructor
  · intro known
    by_cases first : number = 1
    · exact ⟨.ethereumState, first⟩
    · exact ⟨.elementsState, by_contra fun second => known ⟨first, second⟩⟩
  · rintro ⟨kind, rfl⟩
    cases kind <;> decide

omit [Hashing] in
theorem tag_inj {left right : StatementKind} :
    left.tag.toNat = right.tag.toNat ↔ left = right := by
  cases left <;> cases right <;> decide

omit [Hashing] in
theorem u32be_length {bytes written : List UInt8} :
    u32be bytes.length = .ok written ↔
      bytes.length < 2 ^ 32 ∧ written = beBytes 4 bytes.length := by
  constructor
  · intro made
    simp only [u32be, assertU32Number] at made
    simp only [↓then_eq_ok, rejectIf_eq_ok] at made
    have fits : bytes.length < 2 ^ 32 := by omega
    have number := @uintBe_natCast bytes.length 4 (by omega)
    exact ⟨fits, Except.ok.inj (made.2.symm.trans number)⟩
  · rintro ⟨fits, rfl⟩
    have inside : ¬((bytes.length : Int) < 0 ∨ (bytes.length : Int) > 0xffffffff) := by omega
    rw [u32be, assertU32Number, rejectIf, if_neg inside]
    exact uintBe_natCast (show bytes.length < 256 ^ 4 by omega)

omit [Hashing] in
/-- What is joined was made part by part. -/
theorem concat_part {parts : List (Except String (List UInt8))} {bytes : List UInt8}
    (joined : concat parts = .ok bytes) {part : Except String (List UInt8)}
    (member : part ∈ parts) : ∃ piece, part = .ok piece := by
  induction parts generalizing bytes with
  | nil => cases member
  | cons first rest ih =>
    simp only [concat] at joined
    simp only [bind_eq_ok, pure_eq_ok] at joined
    obtain ⟨piece, made, others, joinedRest, -⟩ := joined
    rcases List.mem_cons.mp member with rfl | later
    · exact ⟨piece, made⟩
    · exact ih joinedRest later

/-- The parts that the client joins make a journal of the crate. -/
theorem concat_journal {kind : StatementKind} {program : Hash32} {payload : List UInt8}
    (fits : payload.length < 2 ^ 32) :
    concat [.ok journalMagic, u16be encodingSchema, .ok [1], .ok journalSuccess,
        .ok [UInt8.ofNat kind.tag.toNat], .ok program.bytes, .ok (sha256 payload),
        u32be payload.length, .ok payload] =
      .ok (ProofCore.StrictJournal.written ⟨kind, program, hashBytes payload, payload⟩) := by
  have schema : u16be encodingSchema = .ok (encode Core.encodingSchema) :=
    u16be_word Core.encodingSchema
  have magic : journalMagic = encode ProofCore.journalMagic := by decide
  have success : journalSuccess = encode journalSuccessMarker := by decide
  have tag : [UInt8.ofNat kind.tag.toNat] = encode kind.tag := by cases kind <;> decide
  have written : ProofCore.StrictJournal.written ⟨kind, program, hashBytes payload, payload⟩ =
      [encode ProofCore.journalMagic, encode Core.encodingSchema, encode digestAlgorithmSha256,
        encode journalSuccessMarker, encode kind.tag, encode program, encode (hashBytes payload),
        beBytes 4 payload.length, payload].flatten := by
    simp [ProofCore.StrictJournal.written, encode]
  rw [written]
  exact concat_eq (.cons (congrArg _ magic) (.cons schema (.cons rfl (.cons (congrArg _ success)
    (.cons (congrArg _ tag) (.cons rfl (.cons rfl (.cons (u32be_length.mpr ⟨fits, rfl⟩)
      (.cons rfl .nil)))))))))

variable (canonical : (emptyBurnNode 64).bytes = emptyBurnRoot)
include canonical

/-- The journals that the client writes are those that the crate accepts. -/
theorem encodeStrictJournal_eq_ok {value : StrictJournal} {bytes : List UInt8} :
    encodeStrictJournal value = .ok bytes ↔
      ∃ core, ProofCore.StrictJournal.decodeStrict bytes = .ok core ∧ value = .ofCore core := by
  simp only [encodeStrictJournal, StrictJournal.decodeStrict_eq_ok]
  simp only [↓then_eq_ok, bind_eq_ok, rejectIf_eq_ok, assertLength, tag_cases, not_not, not_or]
  constructor
  · rintro ⟨width, ⟨kind, known⟩, ⟨nonzero, nonempty⟩, typed, decoded, joined⟩
    obtain ⟨statementKind, programId, payload⟩ := value
    obtain ⟨program, rfl⟩ := exists_fixed width
    obtain rfl : statementKind = kind.tag.toNat := known
    obtain ⟨piece, made⟩ : ∃ piece, u32be payload.length = .ok piece :=
      concat_part joined (by simp)
    have fits := (u32be_length.mp made).1
    obtain ⟨core, accepted, -⟩ := (decodeTypedPublicValues_ofCore canonical).mp decoded
    refine ⟨⟨kind, program, hashBytes payload, payload⟩, ⟨?_, ?_, ?_, fits, rfl, core, accepted⟩, rfl⟩
    · exact Except.ok.inj (joined.symm.trans (concat_journal fits))
    · exact (isZero_fixed program).not.mp nonzero
    · exact fun empty => nonempty (List.length_eq_zero_iff.mpr empty)
  · rintro ⟨core, ⟨rfl, nonzero, nonempty, fits, digest, typed, decoded⟩, rfl⟩
    obtain ⟨kind, program, payloadSha256, payload⟩ := core
    obtain rfl : payloadSha256 = hashBytes payload := digest
    refine ⟨program.length_eq, ⟨kind, rfl⟩, ⟨(isZero_fixed program).not.mpr nonzero, ?_⟩,
      _, (decodeTypedPublicValues_ofCore canonical).mpr ⟨typed, decoded, rfl⟩,
      concat_journal fits⟩
    exact fun empty => nonempty (List.length_eq_zero_iff.mp empty)

omit [Hashing] canonical in
/-- The slices of a journal are its fields. -/
theorem slices_strictJournal (journal : ProofCore.StrictJournal) :
    journal.written.length = 88 + journal.payload.length ∧
      slice journal.written 0 8 = journalMagic ∧
      readUintBe (slice journal.written 8 10) = encodingSchema ∧
      journal.written[10]? = some 1 ∧ slice journal.written 11 19 = journalSuccess ∧
      journal.written[19]? = some journal.statementKind.tag ∧
      slice journal.written 20 52 = journal.programId.bytes ∧
      slice journal.written 52 84 = journal.payloadSha256.bytes ∧
      slice journal.written 84 88 = beBytes 4 journal.payload.length ∧
      journal.written.drop 88 = journal.payload := by
  have cut := pieces_flatten [encode ProofCore.journalMagic, encode Core.encodingSchema,
    encode digestAlgorithmSha256, encode journalSuccessMarker, encode journal.statementKind.tag,
    encode journal.programId, encode journal.payloadSha256, beBytes 4 journal.payload.length,
    journal.payload]
  have whole : journal.written = [encode ProofCore.journalMagic, encode Core.encodingSchema,
      encode digestAlgorithmSha256, encode journalSuccessMarker,
      encode journal.statementKind.tag, encode journal.programId, encode journal.payloadSha256,
      beBytes 4 journal.payload.length, journal.payload].flatten := by
    simp [ProofCore.StrictJournal.written, encode]
  have total : journal.written.length = 88 + journal.payload.length := by
    rw [whole]
    simp
    omega
  rw [← whole] at cut
  simp only [List.map_cons, List.map_nil, encode_fixed_length, encode_u16_length,
    encode_u8_length, beBytes_length, pieces, List.cons.injEq, List.drop_drop] at cut
  obtain ⟨magic, schema, algorithm, marker, tag, program, digest, length, rest, -⟩ := cut
  have all : (journal.written.drop 88).take journal.payload.length = journal.written.drop 88 :=
    List.take_of_length_le (by rw [List.length_drop]; omega)
  have schemaNumber : readUintBe (slice journal.written 8 10) = encodingSchema := by
    rw [show slice journal.written 8 10 = encode Core.encodingSchema from schema, readUintBe_u16]
    rfl
  exact ⟨total, magic.trans (by decide), schemaNumber, slice_byte.mpr algorithm,
    marker.trans (by decide), slice_byte.mpr tag, program, digest, length, all.symm.trans rest⟩

/-- What the client reads as a journal is what it writes of it. -/
theorem decodeStrictJournal_eq_ok {bytes : List UInt8} {value : StrictJournal} :
    decodeStrictJournal bytes = .ok value ↔ encodeStrictJournal value = .ok bytes := by
  simp only [decodeStrictJournal]
  simp only [↓then_eq_ok, bind_eq_ok, rejectIf_eq_ok, pure_eq_ok, bytesToHex_inj, not_not, ne_eq]
  constructor
  · rintro ⟨-, -, -, -, -, -, -, -, -, -, -, encoded, made, rfl, rfl⟩
    exact made
  · intro made
    obtain ⟨core, accepted, rfl⟩ := (encodeStrictJournal_eq_ok canonical).mp made
    obtain ⟨rfl, nonzero, nonempty, fits, hashed, typed, decoded⟩ :=
      ProofCore.StrictJournal.decodeStrict_eq_ok.mp accepted
    obtain ⟨total, magic, schema, algorithm, marker, tag, program, digest, length, rest⟩ :=
      slices_strictJournal core
    have number : readUintBe (beBytes 4 core.payload.length) = core.payload.length := by
      rw [readUintBe_eq, beNat_beBytes_of_lt fits]
    have kind : core.written.getD 19 0 = core.statementKind.tag := by
      rw [List.getD_eq_getElem?_getD, tag]
      rfl
    have known : ¬(¬some core.statementKind.tag = some 1 ∧ ¬some core.statementKind.tag = some 2) := by
      cases core.statementKind <;> decide
    have some_ : core.payload.length ≠ 0 := fun empty => nonempty (List.length_eq_zero_iff.mp empty)
    rw [magic, schema, algorithm, marker, tag, program, digest, length, rest, number, kind, total,
      hashed]
    exact ⟨by omega, rfl, rfl, rfl, rfl, known, (isZero_fixed _).not.mpr nonzero, by omega, rfl, _,
      (decodeTypedPublicValues_ofCore canonical).mpr ⟨typed, decoded, rfl⟩, _, made, rfl, rfl⟩

/-- The client reads the journals that the crate accepts, and writes them as they were. -/
theorem agrees_strictJournal : Agrees StrictJournal.ofCore ProofCore.StrictJournal.decodeStrict
    decodeStrictJournal encodeStrictJournal where
  accepts _ _ := (decodeStrictJournal_eq_ok canonical).trans (encodeStrictJournal_eq_ok canonical)
  rewrites _ _ := (decodeStrictJournal_eq_ok canonical).mp

end Journals

section Annexes

/-- An annex of the crate in the client. -/
def Sp1Annex.ofCore (annex : Sp1ProofAnnex) : Sp1Annex where
  statementKind := annex.statementKind.tag.toNat
  guestProgramId := annex.guestProgramId.bytes
  publicValues := annex.publicValues
  proof := annex.proof

/-- The parts that the client joins make an annex of the crate. -/
theorem concat_annex {program : Hash32} {publicValues proof : List UInt8}
    (valuesFit : publicValues.length < 2 ^ 32) (proofFits : proof.length < 2 ^ 32) :
    concat [.ok [0x50], .ok annexMagic, .ok [1, 1, UInt8.ofNat 1, 1], u16be 0,
        u32be publicValues.length, u32be proof.length, .ok program.bytes, .ok publicValues,
        .ok proof] =
      .ok (Sp1ProofAnnex.written ⟨.ethereumState, program, publicValues, proof⟩) := by
  have magic : annexMagic = encode sp1AnnexMagic := by decide
  have flags : u16be 0 = .ok (encode (0 : UInt16)) := u16be_word 0
  have written : Sp1ProofAnnex.written ⟨.ethereumState, program, publicValues, proof⟩ =
      [encode sp1AnnexTag, encode sp1AnnexMagic, [1, 1, 1, 1], encode (0 : UInt16),
        beBytes 4 publicValues.length, beBytes 4 proof.length, encode program, publicValues,
        proof].flatten := by
    simp [Sp1ProofAnnex.written, Sp1ProofAnnex.Header.written, encode, StatementKind.tag,
      UInt32.toNat_ofNat_of_lt' valuesFit, UInt32.toNat_ofNat_of_lt' proofFits]
  rw [written]
  exact concat_eq (.cons rfl (.cons (congrArg _ magic) (.cons rfl (.cons flags
    (.cons (u32be_length.mpr ⟨valuesFit, rfl⟩) (.cons (u32be_length.mpr ⟨proofFits, rfl⟩)
      (.cons rfl (.cons rfl (.cons rfl .nil)))))))))

/-- The annexes that the client writes are those that the crate accepts. -/
theorem encodeSp1Annex_eq_ok {value : Sp1Annex} {bytes : List UInt8} :
    encodeSp1Annex value = .ok bytes ↔
      ∃ core, Sp1ProofAnnex.decodeStrict bytes = .ok core ∧ value = .ofCore core := by
  simp only [encodeSp1Annex, Sp1ProofAnnex.decodeStrict_eq_ok]
  simp only [↓then_eq_ok, bind_eq_ok, rejectIf_eq_ok, pure_eq_ok, assertLength, not_not, not_or,
    ne_eq]
  constructor
  · rintro ⟨known, width, nonzero, ⟨valuesNe, valuesLe⟩, proofNe, _, joined, size, rfl⟩
    obtain ⟨statementKind, programId, publicValues, proof⟩ := value
    obtain ⟨program, rfl⟩ := exists_fixed width
    obtain rfl : statementKind = 1 := known
    obtain ⟨_, valuesMade⟩ : ∃ piece, u32be publicValues.length = .ok piece :=
      concat_part joined (by simp)
    obtain ⟨_, proofMade⟩ : ∃ piece, u32be proof.length = .ok piece :=
      concat_part joined (by simp)
    have made := @concat_annex program _ _ (u32be_length.mp valuesMade).1
      (u32be_length.mp proofMade).1
    obtain rfl := Except.ok.inj (joined.symm.trans made)
    rw [Sp1ProofAnnex.written_length] at size
    refine ⟨⟨.ethereumState, program, publicValues, proof⟩, ⟨⟨rfl, ?_, ?_, ?_, ?_, ?_⟩, rfl⟩, rfl⟩
    · exact (isZero_fixed program).not.mp nonzero
    · exact fun empty => valuesNe (List.length_eq_zero_iff.mpr empty)
    · exact Nat.not_lt.mp valuesLe
    · exact fun empty => proofNe (List.length_eq_zero_iff.mpr empty)
    · exact Nat.not_lt.mp size
  · rintro ⟨core, ⟨valid, rfl⟩, rfl⟩
    obtain ⟨kind, program, publicValues, proof⟩ := core
    obtain rfl : kind = .ethereumState := valid.kind
    have size : 55 + publicValues.length + proof.length ≤ 524288 := valid.size
    have values : publicValues ≠ [] := valid.values_ne
    have bound : publicValues.length ≤ 16384 := valid.values_le
    have parts : proof ≠ [] := valid.proof_ne
    have valuesFit : publicValues.length < 2 ^ 32 := by omega
    have proofFits : proof.length < 2 ^ 32 := by omega
    refine ⟨rfl, program.length_eq, (isZero_fixed program).not.mpr valid.program,
      ⟨fun empty => values (List.length_eq_zero_iff.mp empty), Nat.not_lt.mpr bound⟩,
      fun empty => parts (List.length_eq_zero_iff.mp empty), _,
      concat_annex valuesFit proofFits, ?_, rfl⟩
    rw [Sp1ProofAnnex.written_length]
    exact Nat.not_lt.mpr size

/-- The slices of an annex are its fields. -/
theorem slices_sp1Annex (annex : Sp1ProofAnnex) (kind : annex.statementKind = .ethereumState) :
    slice annex.written 0 1 = [0x50] ∧ slice annex.written 1 9 = annexMagic ∧
      slice annex.written 9 10 = [1] ∧ slice annex.written 10 11 = [1] ∧
      slice annex.written 11 12 = [1] ∧ slice annex.written 12 13 = [1] ∧
      slice annex.written 13 14 = [0] ∧ slice annex.written 14 15 = [0] ∧
      slice annex.written 15 19 = encode (UInt32.ofNat annex.publicValues.length) ∧
      slice annex.written 19 23 = encode (UInt32.ofNat annex.proof.length) ∧
      slice annex.written 23 55 = annex.guestProgramId.bytes ∧
      slice annex.written 55 (55 + annex.publicValues.length) = annex.publicValues ∧
      annex.written.drop (55 + annex.publicValues.length) = annex.proof := by
  have cut := pieces_flatten [encode sp1AnnexTag, encode sp1AnnexMagic, encode (1 : UInt8),
    encode (1 : UInt8), encode annex.statementKind.tag, encode (1 : UInt8), encode (0 : UInt8),
    encode (0 : UInt8), encode (UInt32.ofNat annex.publicValues.length),
    encode (UInt32.ofNat annex.proof.length), encode annex.guestProgramId, annex.publicValues,
    annex.proof]
  have flags : encode (0 : UInt16) = encode (0 : UInt8) ++ encode (0 : UInt8) := by decide
  have whole : annex.written = [encode sp1AnnexTag, encode sp1AnnexMagic, encode (1 : UInt8),
      encode (1 : UInt8), encode annex.statementKind.tag, encode (1 : UInt8), encode (0 : UInt8),
      encode (0 : UInt8), encode (UInt32.ofNat annex.publicValues.length),
      encode (UInt32.ofNat annex.proof.length), encode annex.guestProgramId, annex.publicValues,
      annex.proof].flatten := by
    simp [Sp1ProofAnnex.written, Sp1ProofAnnex.Header.written, flags]
  rw [← whole, kind] at cut
  simp only [List.map_cons, List.map_nil, encode_fixed_length, encode_u32_length,
    encode_u8_length, pieces, List.cons.injEq, List.drop_drop] at cut
  obtain ⟨tag, magic, version, system, statement, digest, high, low, values, proof, program,
    publicValues, rest, -⟩ := cut
  have total := Sp1ProofAnnex.written_length annex
  have all : (annex.written.drop (55 + annex.publicValues.length)).take annex.proof.length =
      annex.written.drop (55 + annex.publicValues.length) :=
    List.take_of_length_le (by rw [List.length_drop]; omega)
  have middle : slice annex.written 55 (55 + annex.publicValues.length) = annex.publicValues := by
    rw [slice, Nat.add_sub_cancel_left]
    exact publicValues
  exact ⟨tag, magic.trans (by decide), version, system, statement, digest, high, low, values,
    proof, program, middle, all.symm.trans rest⟩

variable [Hashing] (canonical : (emptyBurnNode 64).bytes = emptyBurnRoot)
include canonical

/-- The client reads an annex of the crate when its public values are a journal about Ethereum
for its program. -/
theorem decodeSp1Annex_eq_ok {bytes : List UInt8} {value : Sp1Annex} :
    decodeSp1Annex bytes = .ok value ↔
      ∃ core journal, Sp1ProofAnnex.decodeStrict bytes = .ok core ∧ value = .ofCore core ∧
        ProofCore.StrictJournal.decodeStrict core.publicValues = .ok journal ∧
        journal.statementKind = .ethereumState ∧ journal.programId = core.guestProgramId := by
  simp only [decodeSp1Annex]
  simp only [↓then_eq_ok, bind_eq_ok, rejectIf_eq_ok, pure_eq_ok, bytesToHex_inj, not_or, not_not,
    ne_eq, slice_byte]
  constructor
  · rintro ⟨-, -, -, -, -, -, -, encoded, made, rfl, journal, read, ⟨sameKind, sameProgram⟩, rfl⟩
    obtain ⟨core, accepted, same⟩ := encodeSp1Annex_eq_ok.mp made
    have inside : decodeStrictJournal core.publicValues = .ok journal :=
      (congrArg (fun annex => decodeStrictJournal annex.publicValues) same).symm.trans read
    obtain ⟨coreJournal, found, rfl⟩ := ((agrees_strictJournal canonical).accepts _ _).mp inside
    have tags : coreJournal.statementKind.tag.toNat = core.statementKind.tag.toNat :=
      sameKind.trans (congrArg Sp1Annex.statementKind same)
    have programs : coreJournal.programId.bytes = core.guestProgramId.bytes :=
      sameProgram.trans (congrArg Sp1Annex.guestProgramId same)
    refine ⟨core, coreJournal, accepted, same, found, ?_, FixedBytes.ext programs⟩
    exact (tag_inj.mp tags).trans (Sp1ProofAnnex.decodeStrict_eq_ok.mp accepted).1.kind
  · rintro ⟨core, journal, accepted, rfl, found, kind, program⟩
    have made := encodeSp1Annex_eq_ok.mpr ⟨core, accepted, rfl⟩
    obtain ⟨valid, rfl⟩ := Sp1ProofAnnex.decodeStrict_eq_ok.mp accepted
    obtain ⟨tag, magic, version, system, statement, digest, high, low, values, proof, programId,
      publicValues, rest⟩ := slices_sp1Annex core valid.kind
    have total := Sp1ProofAnnex.written_length core
    have size := valid.size
    have valuesLen : (readUintBe (encode (UInt32.ofNat core.publicValues.length))).toNat =
        core.publicValues.length := by
      rw [readUintBe_u32, UInt32.toNat_ofNat_of_lt' (show _ < 2 ^ 32 by omega)]
      rfl
    have proofLen : (readUintBe (encode (UInt32.ofNat core.proof.length))).toNat =
        core.proof.length := by
      rw [readUintBe_u32, UInt32.toNat_ofNat_of_lt' (show _ < 2 ^ 32 by omega)]
      rfl
    have byte : core.written.getD 11 0 = 1 := by
      rw [List.getD_eq_getElem?_getD, slice_byte.mpr statement]
      rfl
    rw [values, proof, valuesLen, proofLen, publicValues, rest, programId, byte]
    have same : (⟨(1 : UInt8).toNat, core.guestProgramId.bytes, core.publicValues, core.proof⟩ :
        Sp1Annex) = .ofCore core := by
      rw [Sp1Annex.ofCore, valid.kind]
      rfl
    rw [same]
    have read := ((agrees_strictJournal canonical).accepts _ _).mpr ⟨journal, found, rfl⟩
    refine ⟨⟨?_, ?_⟩, ⟨tag, magic⟩, ⟨version, system⟩, statement, digest, ⟨high, low⟩, ?_, _, made,
      rfl, _, read, ⟨?_, congrArg FixedBytes.bytes program⟩, rfl⟩
    · rw [total, annexHeaderSize]
      omega
    · rw [total, annexMaxSize]
      omega
    · rw [total]
      rfl
    · exact congrArg (fun kind : StatementKind => kind.tag.toNat) kind

end Annexes

end Usdd.TypeScript
