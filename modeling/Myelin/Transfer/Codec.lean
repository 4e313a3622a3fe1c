/-
  The transfer record envelope.

  Decoding re-encodes what it read and compares, so an accepted record is CANONICAL.  The other
  direction is `Codec.decode_encode`: whatever was encoded is read back, as long as `postcard`
  reads back its body.
-/
import Myelin.Transfer.Types

namespace Myelin.Transfer

open Lib Consensus Session

namespace Codec

/-- Magic, version, body length and body checksum. -/
def headerBytes : Nat := 46

/-- Any failure of the bounded codec. -/
def codecError (error : SessionError) : TransferError := .codec error.display

/-- Wrap an encoded body. -/
def encode (env : SessionEnv) (magic : String) (body : List UInt8) (cap : Nat) :
    Except TransferError (List UInt8) := do
  ensure (headerBytes ≤ min cap maxRecordBytes) (.bounds "record cap")
  let _ ← (sizeWithLimit body "transfer_record" (min cap maxRecordBytes - headerBytes)).mapError codecError
  pure (utf8 magic ++ le16 1 ++ le64 (UInt64.ofNat body.length) ++ (env.blake3 body).val ++ body)

/-- Open an envelope and read its body as `α`. -/
def decode {α : Type} (env : SessionEnv) (magic : String) (put : α → List UInt8)
    (take : List UInt8 → Except String (α × List UInt8)) (bytes : List UInt8) (cap : Nat) :
    Except TransferError α := do
  ensure (headerBytes ≤ bytes.length ∧ bytes.length ≤ min cap maxRecordBytes ∧
      utf8 magic <+: bytes ∧ (bytes.drop 4).take 2 = le16 1)
    (.codec "invalid transfer record envelope/version/size")
  ensure (ofLeBytes ((bytes.drop 6).take 8) = (bytes.drop headerBytes).length ∧
      (env.blake3 (bytes.drop headerBytes)).val = (bytes.drop 14).take 32)
    (.codec "transfer record length/checksum mismatch")
  let (value, rest) ← (take (bytes.drop headerBytes)).mapError .codec
  ensure (rest = []) (.codec "noncanonical or trailing transfer record bytes")
  let again ← encode env magic (put value) cap
  ensure (again = bytes) (.codec "noncanonical or trailing transfer record bytes")
  pure value

/-- Hash serialised bytes under a domain. -/
def hash (env : SessionEnv) (domain : String) (bytes : List UInt8) : Except TransferError Hash32 := do
  let _ ← (sizeWithLimit bytes "transfer_hash" maxRecordBytes).mapError codecError
  pure (env.blake3 (utf8 domain ++ bytes))

variable {env : SessionEnv} {magic : String} {body bytes : List UInt8} {cap : Nat}

lemma encode_eq_ok (h : encode env magic body cap = .ok bytes) :
    body.length + headerBytes ≤ min cap maxRecordBytes ∧
      bytes = utf8 magic ++ le16 1 ++ le64 (UInt64.ofNat body.length) ++ (env.blake3 body).val ++
        body := by
  simp only [encode, sizeWithLimit, eq_ok] at h
  obtain ⟨hcap, _, ⟨hsize, -⟩, rfl⟩ := h
  exact ⟨by omega, rfl⟩

/-- The parts of a written envelope. -/
lemma encode_parts (hmagic : (utf8 magic).length = 4) (h : encode env magic body cap = .ok bytes) :
    bytes.length = headerBytes + body.length ∧ (bytes.drop 4).take 2 = le16 1 ∧
      (bytes.drop 6).take 8 = le64 (UInt64.ofNat body.length) ∧
      (bytes.drop 14).take 32 = (env.blake3 body).val ∧ bytes.drop headerBytes = body := by
  obtain ⟨-, rfl⟩ := encode_eq_ok h
  have hhash : (env.blake3 body).val.length = 32 := (env.blake3 body).property
  have hversion : (le16 1).length = 2 := leBytes_length 2 _
  have hlength : (le64 (UInt64.ofNat body.length)).length = 8 := leBytes_length 8 _
  generalize utf8 magic = a at *
  generalize le16 1 = b at *
  generalize le64 (UInt64.ofNat body.length) = c at *
  generalize (env.blake3 body).val = d at *
  refine ⟨?_, ?_, ?_, ?_, ?_⟩ <;>
    simp [headerBytes, List.drop_append, hmagic, hversion, hlength, hhash, List.drop_of_length_le]
  omega

/-- Whatever was encoded is read back. -/
lemma decode_encode {α : Type} {put : α → List UInt8}
    {take : List UInt8 → Except String (α × List UInt8)} {value : α}
    (hmagic : (utf8 magic).length = 4) (h : encode env magic (put value) cap = .ok bytes)
    (htake : take (put value) = .ok (value, [])) :
    decode env magic put take bytes cap = .ok value := by
  obtain ⟨hsize, hversion, hlength, hhash, hbody⟩ := encode_parts hmagic h
  obtain ⟨hcap, hbytes⟩ := encode_eq_ok h
  have hword : (put value).length < 2 ^ 64 := by
    have hmax : maxRecordBytes < 2 ^ 64 := by decide
    omega
  have hcount : ofLeBytes (le64 (UInt64.ofNat (put value).length)) = (put value).length := by
    rw [le64, ofLeBytes_leBytes _ _ (UInt64.toNat_lt _), UInt64.toNat_ofNat']
    exact Nat.mod_eq_of_lt hword
  have hfront : utf8 magic <+: bytes := by
    rw [hbytes]
    simp only [List.append_assoc]
    exact List.prefix_append _ _
  simp only [decode, eq_ok]
  refine ⟨⟨by omega, by omega, hfront, hversion⟩, ⟨?_, ?_⟩, (value, []), ?_, rfl, bytes, h, rfl, rfl⟩
  · rw [hlength, hcount, hbody]
  · rw [hbody, hhash]
  · rw [hbody, htake]

end Codec

end Myelin.Transfer
