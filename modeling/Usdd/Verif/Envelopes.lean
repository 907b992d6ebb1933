import Usdd.ProofCore.Annex
import Usdd.ProofCore.TypedPayload
/-!
# Canonical journals and annexes

The journal and the annex are written one way only, and their strict decoders accept exactly what
the constructors build. The comparison with a second encoding and the `expect`s of the decoders
never fail.
-/
namespace Usdd.Verif

open Usdd.Foundation Usdd.Core Usdd.ProofCore

/-- A computation stopped with an error of the source other than the comparison with a second
encoding, and not by a failed `expect`. -/
def Foreseen {ε : Type} (nonCanonical : ε) (fault : Fault ε) : Prop :=
  ∃ error, fault = .error error ∧ error ≠ nonCanonical

/-- A field of a journal stops with a decoding error only. -/
theorem journalField_failsWith {α : Type} {read : Decoder α} {bytes : List UInt8} :
    FailsWith (Foreseen JournalError.nonCanonicalEncoding) (StrictJournal.field read bytes) :=
  .mapError fun _ _ => ⟨_, rfl, by simp⟩

theorem journalCheck_failsWith {condition : Prop} [Decidable condition] {error : JournalError}
    {bytes : List UInt8} (other : error ≠ .nonCanonicalEncoding) :
    FailsWith (Foreseen JournalError.nonCanonicalEncoding)
      (Reader.check (StrictJournal.refuse condition error) bytes) :=
  .lift (.rejectIf ⟨_, rfl, other⟩)

theorem statementKindField_failsWith {bytes : List UInt8} :
    FailsWith (Foreseen JournalError.nonCanonicalEncoding)
      (StrictJournal.statementKindField bytes) := by
  refine .readerBind journalField_failsWith fun tag rest => .lift ?_
  simp only [StatementKind.decode]
  split
  · exact .ok _
  · split
    · exact .ok _
    · rintro failed ⟨rfl⟩
      exact ⟨_, rfl, by simp⟩

theorem decodeFields_failsWith (bytes : List UInt8) :
    FailsWith (Foreseen JournalError.nonCanonicalEncoding) (StrictJournal.decodeFields bytes) := by
  refine .readerBind journalField_failsWith fun _ _ => ?_
  refine .readerBind (journalCheck_failsWith (by simp)) fun _ _ => ?_
  refine .readerBind journalField_failsWith fun _ _ => ?_
  refine .readerBind (journalCheck_failsWith (by simp)) fun _ _ => ?_
  refine .readerBind journalField_failsWith fun _ _ => ?_
  refine .readerBind (journalCheck_failsWith (by simp)) fun _ _ => ?_
  refine .readerBind journalField_failsWith fun _ _ => ?_
  refine .readerBind (journalCheck_failsWith (by simp)) fun _ _ => ?_
  refine .readerBind statementKindField_failsWith fun _ _ => ?_
  refine .readerBind journalField_failsWith fun _ _ => ?_
  refine .readerBind (journalCheck_failsWith (by simp)) fun _ _ => ?_
  refine .readerBind journalField_failsWith fun _ _ => ?_
  refine .readerBind journalField_failsWith fun _ _ => ?_
  refine .readerBind (journalCheck_failsWith (by simp)) fun _ _ => .ok _

/-- A payload that is not a record of its kind is refused as such. -/
theorem decodeTyped_failsWith [Hashing] {kind : StatementKind} {payload : List UInt8} :
    FailsWith (· ≠ JournalError.nonCanonicalEncoding) (TypedPublicValues.decode kind payload) := by
  intro error failed
  simp only [TypedPublicValues.decode] at failed
  split at failed
  · split at failed
    · cases failed
    · split at failed
      · cases failed
      · obtain rfl := Except.error.inj failed
        simp
  · split at failed
    · cases failed
    · obtain rfl := Except.error.inj failed
      simp

/-- The journal decoder neither panics nor finds a second encoding. -/
theorem decodeJournal_failsWith [Hashing] (bytes : List UInt8) :
    FailsWith (Foreseen JournalError.nonCanonicalEncoding) (StrictJournal.decodeStrict bytes) := by
  refine .bind (decodeFields_failsWith bytes) fun ⟨journal, remaining⟩ fields => ?_
  obtain ⟨⟨_, _, fits⟩, split⟩ := (StrictJournal.reads_decodeFields _ _ _).mp fields
  refine .bind (.rejectIf ⟨_, rfl, by simp⟩) fun _ consumed => ?_
  refine .bind (.rejectIf ⟨_, rfl, by simp⟩) fun _ _ => ?_
  refine .bind (.mapError fun error failed => ⟨error, rfl, decodeTyped_failsWith error failed⟩)
    fun _ _ => ?_
  have all := StrictJournal.refuse_eq_ok.mp consumed
  obtain rfl := List.length_eq_zero_iff.mp (not_not.mp all)
  rw [List.append_nil] at split
  have written : (_ : Except (Fault JournalError) (List UInt8)) = .ok _ :=
    StrictJournal.encode_eq_ok.mpr ⟨fits, split⟩
  refine .bind (by rw [written]; exact .ok _) fun again same => ?_
  obtain rfl := Except.ok.inj (written.symm.trans same)
  exact .bind (.passed (not_not.mpr rfl)) fun _ _ => .ok _

/-- A field of an annex stops with a decoding error only. -/
theorem annexField_failsWith {α : Type} {read : Decoder α} {bytes : List UInt8} :
    FailsWith (Foreseen AnnexError.nonCanonicalEncoding) (Sp1ProofAnnex.field read bytes) :=
  .mapError fun _ _ => ⟨_, rfl, by simp⟩

theorem annexCheck_failsWith {condition : Prop} [Decidable condition] {error : AnnexError}
    {bytes : List UInt8} (other : error ≠ .nonCanonicalEncoding) :
    FailsWith (Foreseen AnnexError.nonCanonicalEncoding)
      (Reader.check (Sp1ProofAnnex.refuse condition error) bytes) :=
  .lift (.rejectIf ⟨_, rfl, other⟩)

theorem decodeHeader_failsWith (bytes : List UInt8) :
    FailsWith (Foreseen AnnexError.nonCanonicalEncoding) (Sp1ProofAnnex.decodeHeader bytes) := by
  refine .readerBind annexField_failsWith fun _ _ => ?_
  refine .readerBind (annexCheck_failsWith (by simp)) fun _ _ => ?_
  refine .readerBind annexField_failsWith fun _ _ => ?_
  refine .readerBind (annexCheck_failsWith (by simp)) fun _ _ => ?_
  refine .readerBind annexField_failsWith fun _ _ => ?_
  refine .readerBind (annexCheck_failsWith (by simp)) fun _ _ => ?_
  refine .readerBind annexField_failsWith fun _ _ => ?_
  refine .readerBind (annexCheck_failsWith (by simp)) fun _ _ => ?_
  refine .readerBind annexField_failsWith fun _ _ => ?_
  refine .readerBind (annexCheck_failsWith (by simp)) fun _ _ => ?_
  refine .readerBind annexField_failsWith fun _ _ => ?_
  refine .readerBind (annexCheck_failsWith (by simp)) fun _ _ => ?_
  refine .readerBind annexField_failsWith fun _ _ => ?_
  refine .readerBind (annexCheck_failsWith (by simp)) fun _ _ => ?_
  refine .readerBind annexField_failsWith fun _ _ => .readerBind annexField_failsWith fun _ _ => ?_
  exact .readerBind annexField_failsWith fun _ _ => .ok _

theorem annexValidate_failsWith (annex : Sp1ProofAnnex) :
    FailsWith (Foreseen AnnexError.nonCanonicalEncoding) annex.validate := by
  refine .bind (.rejectIf ⟨_, rfl, by simp⟩) fun _ _ => ?_
  refine .bind (.rejectIf ⟨_, rfl, by simp⟩) fun _ _ => ?_
  refine .bind (.rejectIf ⟨_, rfl, by simp⟩) fun _ _ => ?_
  refine .bind (.rejectIf ⟨_, rfl, by simp⟩) fun _ _ => ?_
  exact .bind (.okOr ⟨_, rfl, by simp⟩) fun _ _ => .rejectIf ⟨_, rfl, by simp⟩

/-- The annex decoder neither panics nor finds a second encoding. -/
theorem decodeAnnex_failsWith (bytes : List UInt8) :
    FailsWith (Foreseen AnnexError.nonCanonicalEncoding) (Sp1ProofAnnex.decodeStrict bytes) := by
  refine .bind (.rejectIf ⟨_, rfl, by simp⟩) fun _ small => ?_
  refine .bind (.rejectIf ⟨_, rfl, by simp⟩) fun _ large => ?_
  refine .bind (decodeHeader_failsWith bytes) fun ⟨header, afterHeader⟩ headerRead => ?_
  refine .bind (.okOr ⟨_, rfl, by simp⟩) fun _ size => ?_
  refine .bind (.rejectIf ⟨_, rfl, by simp⟩) fun _ length => ?_
  refine .bind annexField_failsWith fun ⟨values, afterValues⟩ valuesRead => ?_
  refine .bind annexField_failsWith fun ⟨proof, remaining⟩ proofRead => ?_
  refine .bind (.rejectIf ⟨_, rfl, by simp⟩) fun _ consumed => ?_
  refine .bind (annexValidate_failsWith _) fun _ _ => ?_
  obtain ⟨_, rfl⟩ := (Sp1ProofAnnex.reads_decodeHeader _ _ _).mp headerRead
  obtain ⟨valuesLen, rfl⟩ := (Reads.orFail (reads_take _) _ _ _).mp valuesRead
  obtain ⟨proofLen, rfl⟩ := (Reads.orFail (reads_take _) _ _ _).mp proofRead
  have all := Sp1ProofAnnex.refuse_eq_ok.mp consumed
  obtain rfl := List.length_eq_zero_iff.mp (not_not.mp all)
  have written : (_ : Except (Fault AnnexError) (List UInt8)) = .ok _ :=
    Sp1ProofAnnex.encode_of_parts valuesLen proofLen
  refine .bind (by rw [written]; exact .ok _) fun again same => ?_
  obtain rfl := Except.ok.inj (written.symm.trans same)
  exact .bind (.passed (by simp)) fun _ _ => .ok _

/-- A computation with foreseen errors only stops neither by a second encoding nor by a panic. -/
theorem foreseen {ε α : Type} {nonCanonical : ε} {computation : Except (Fault ε) α}
    (fails : FailsWith (Foreseen nonCanonical) computation) :
    computation ≠ .error (.error nonCanonical) ∧
      ∀ message, computation ≠ .error (.panic message) := by
  constructor
  · intro failed
    obtain ⟨error, same, other⟩ := fails _ failed
    exact other (Fault.error.inj same).symm
  · intro message failed
    obtain ⟨error, same, _⟩ := fails _ failed
    exact nomatch same

section Laws

variable [Hashing]

/-- The laws of the two envelopes. -/
structure EnvelopesCanonical : Prop where
  journalRoundTrip : ∀ kind programId payload journal,
    StrictJournal.new kind programId payload = .ok journal →
    ∃ bytes, (journal.encode : Except (Fault JournalError) (List UInt8)) = .ok bytes ∧
      StrictJournal.decodeStrict bytes = .ok journal
  journalCanonical : ∀ bytes journal, StrictJournal.decodeStrict bytes = .ok journal →
    (journal.encode : Except (Fault JournalError) (List UInt8)) = .ok bytes
  journalConstructed : ∀ bytes journal, StrictJournal.decodeStrict bytes = .ok journal →
    StrictJournal.new journal.statementKind journal.programId journal.payload = .ok journal
  journalTyped : ∀ bytes journal, StrictJournal.decodeStrict bytes = .ok journal →
    ∃ value, journal.typedPayload = .ok value ∧ value.encode = journal.payload
  payloadUnambiguous : ∀ payload : List UInt8,
    ¬(Succeeds (decodeExact DepositPublicOutput payload) ∧
      Succeeds (decodeExact HeartbeatPublicOutput payload)) ∧
    ¬(Succeeds (decodeExact DepositPublicOutput payload) ∧
      Succeeds (decodeExact ElementsStatePublicOutput payload)) ∧
    ¬(Succeeds (decodeExact HeartbeatPublicOutput payload) ∧
      Succeeds (decodeExact ElementsStatePublicOutput payload))
  annexRoundTrip : ∀ kind programId publicValues proof annex,
    Sp1ProofAnnex.new kind programId publicValues proof = .ok annex →
    ∃ bytes, (annex.encode : Except (Fault AnnexError) (List UInt8)) = .ok bytes ∧
      Sp1ProofAnnex.decodeStrict bytes = .ok annex
  annexCanonical : ∀ bytes annex, Sp1ProofAnnex.decodeStrict bytes = .ok annex →
    (annex.encode : Except (Fault AnnexError) (List UInt8)) = .ok bytes ∧
      Sp1ProofAnnex.new annex.statementKind annex.guestProgramId annex.publicValues annex.proof =
        .ok annex
  journalForeseen : ∀ bytes,
    StrictJournal.decodeStrict bytes ≠ .error (.error .nonCanonicalEncoding) ∧
    ∀ message, StrictJournal.decodeStrict bytes ≠ .error (.panic message)
  annexForeseen : ∀ bytes,
    Sp1ProofAnnex.decodeStrict bytes ≠ .error (.error .nonCanonicalEncoding) ∧
    ∀ message, Sp1ProofAnnex.decodeStrict bytes ≠ .error (.panic message)

/-- No payload decodes as two of the three records. -/
theorem payload_unambiguous (payload : List UInt8) :
    ¬(Succeeds (decodeExact DepositPublicOutput payload) ∧
      Succeeds (decodeExact HeartbeatPublicOutput payload)) ∧
    ¬(Succeeds (decodeExact DepositPublicOutput payload) ∧
      Succeeds (decodeExact ElementsStatePublicOutput payload)) ∧
    ¬(Succeeds (decodeExact HeartbeatPublicOutput payload) ∧
      Succeeds (decodeExact ElementsStatePublicOutput payload)) := by
  refine ⟨?_, ?_, ?_⟩
  · rintro ⟨⟨deposit, first⟩, heartbeat, second⟩
    exact deposit_ne_heartbeat deposit heartbeat
      ((decodeExact_eq_ok.mp first).2.symm.trans (decodeExact_eq_ok.mp second).2)
  · rintro ⟨⟨deposit, first⟩, elements, second⟩
    exact deposit_ne_elements deposit elements
      ((decodeExact_eq_ok.mp first).2.symm.trans (decodeExact_eq_ok.mp second).2)
  · rintro ⟨⟨heartbeat, first⟩, elements, second⟩
    exact heartbeat_ne_elements heartbeat elements
      ((decodeExact_eq_ok.mp first).2.symm.trans (decodeExact_eq_ok.mp second).2)

/-- Journals and annexes are canonical and unambiguous, and their decoders never panic. -/
theorem envelopes_canonical : EnvelopesCanonical where
  journalRoundTrip kind programId payload journal made := by
    obtain ⟨program, nonempty, ⟨value, decoded⟩, rfl⟩ := StrictJournal.new_eq_ok.mp made
    obtain ⟨valid, _, written⟩ := TypedPublicValues.decode_eq_ok.mp decoded
    have fits : payload.length < 2 ^ 32 := written ▸ TypedPublicValues.encode_length_lt valid
    exact ⟨_, StrictJournal.encode_eq_ok.mpr ⟨fits, rfl⟩, StrictJournal.decodeStrict_eq_ok.mpr
      ⟨rfl, program, nonempty, fits, rfl, value, decoded⟩⟩
  journalCanonical bytes journal decoded := by
    obtain ⟨written, _, _, fits, _⟩ := StrictJournal.decodeStrict_eq_ok.mp decoded
    exact StrictJournal.encode_eq_ok.mpr ⟨fits, written⟩
  journalConstructed bytes journal decoded := by
    obtain ⟨_, program, nonempty, _, digest, typed⟩ := StrictJournal.decodeStrict_eq_ok.mp decoded
    obtain ⟨kind, programId, sha, payload⟩ := journal
    obtain rfl : sha = hashBytes payload := digest
    exact StrictJournal.new_eq_ok.mpr ⟨program, nonempty, typed, rfl⟩
  journalTyped bytes journal decoded := by
    obtain ⟨_, _, _, _, _, value, typed⟩ := StrictJournal.decodeStrict_eq_ok.mp decoded
    exact ⟨value, (mapError_eq_ok _ _ _).mpr typed,
      (TypedPublicValues.decode_eq_ok.mp typed).2.2.symm⟩
  payloadUnambiguous := payload_unambiguous
  annexRoundTrip kind programId publicValues proof annex made := by
    obtain ⟨valid, _⟩ := Sp1ProofAnnex.new_eq_ok.mp made
    have size := valid.size
    exact ⟨_, Sp1ProofAnnex.encode_eq_ok.mpr ⟨by omega, by omega, rfl⟩,
      Sp1ProofAnnex.decodeStrict_eq_ok.mpr ⟨valid, rfl⟩⟩
  annexCanonical bytes annex decoded := by
    obtain ⟨valid, written⟩ := Sp1ProofAnnex.decodeStrict_eq_ok.mp decoded
    have size := valid.size
    exact ⟨Sp1ProofAnnex.encode_eq_ok.mpr ⟨by omega, by omega, written⟩,
      Sp1ProofAnnex.new_eq_ok.mpr ⟨valid, rfl⟩⟩
  journalForeseen bytes := foreseen (decodeJournal_failsWith bytes)
  annexForeseen bytes := foreseen (decodeAnnex_failsWith bytes)

end Laws

end Usdd.Verif
