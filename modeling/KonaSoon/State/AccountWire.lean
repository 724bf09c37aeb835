import KonaSoon.State.TrieDB
import KonaSoon.Lib.Bytes

namespace KonaSoon.State
open Lib Mpt

def flagByte (flag : Bool) : UInt8 := if flag then 1 else 0

def readFlag (b : UInt8) : Option Bool := if b = 0 then some false else if b = 1 then some true else none

theorem readFlag_eq_some {b : UInt8} {flag : Bool} : readFlag b = some flag ↔ b = flagByte flag := by
  unfold readFlag flagByte
  cases flag <;> grind

/-- `bincode::serialize` of an account. -/
def bincodeSerialize (account : Account) : List UInt8 :=
  toLeBytes 8 account.lamports.toNat ++ (toLeBytes 8 account.data.1.length ++ (account.data.1 ++
    (account.owner.1 ++ (flagByte account.executable :: toLeBytes 8 account.rentEpoch.toNat))))

def bincodeDeserialize (input : List UInt8) : Option Account := do
  let (lamports, input) ← takeFixed 8 input
  let (length, input) ← takeFixed 8 input
  let (data, input) ← takeFixed (fromLeBytes length.1) input
  let (owner, input) ← takeFixed 32 input
  let (flag, input) ← takeFixed 1 input
  let executable ← readFlag (flag.1.headD 0)
  let (rentEpoch, _) ← takeFixed 8 input
  if fits : data.1.length < 2 ^ 63 then
    some ⟨UInt64.ofNat (fromLeBytes lamports.1), ⟨data.1, fits⟩, owner, executable, UInt64.ofNat (fromLeBytes rentEpoch.1)⟩
  else none

theorem toLeBytes_word (bytes : FixedBytes 8) : toLeBytes 8 (UInt64.ofNat (fromLeBytes bytes.1)).toNat = bytes.1 := by
  obtain ⟨bytes, length⟩ := bytes
  have fits : fromLeBytes bytes < 2 ^ 64 := by simpa [length] using fromLeBytes_lt bytes
  have back := toLeBytes_fromLeBytes bytes
  rw [length] at back
  rw [UInt64.toNat_ofNat_of_lt' fits, back]

theorem fromLeBytes_word (n : UInt64) : UInt64.ofNat (fromLeBytes (toLeBytes 8 n.toNat)) = n := by
  have fits : n.toNat < 256 ^ 8 := n.toNat_lt
  rw [fromLeBytes_toLeBytes, Nat.mod_eq_of_lt fits, UInt64.ofNat_toNat]

theorem bincodeDeserialize_iff {input : List UInt8} {account : Account} :
    bincodeDeserialize input = some account ↔ ∃ rest, input = bincodeSerialize account ++ rest := by
  simp only [bincodeDeserialize, Option.bind_eq_bind, Option.bind_eq_some_iff, Prod.exists, takeFixed_eq_some]
  constructor
  · rintro ⟨lamports, _, rfl, length, _, rfl, data, _, rfl, owner, _, rfl, ⟨flag, single⟩, _, rfl, executable, isFlag,
      rentEpoch, rest, rfl, built⟩
    split at built
    · cases built
      have lengths : toLeBytes 8 data.1.length = length.1 := by
        have back := toLeBytes_fromLeBytes length.1
        rwa [length.2, ← data.2] at back
      obtain ⟨b, rfl⟩ := List.length_eq_one_iff.mp single
      have written : b = flagByte executable := readFlag_eq_some.mp isFlag
      refine ⟨rest, ?_⟩
      simp only [bincodeSerialize, toLeBytes_word, lengths, written, List.append_assoc, List.cons_append, List.nil_append]
    · cases built
  · rintro ⟨rest, rfl⟩
    have short : account.data.1.length < 256 ^ 8 := lt_trans account.data.2 (by norm_num)
    have length : account.data.1.length = fromLeBytes (toLeBytes 8 account.data.1.length) := by
      rw [fromLeBytes_toLeBytes, Nat.mod_eq_of_lt short]
    refine ⟨⟨_, length_toLeBytes 8 account.lamports.toNat⟩, _, List.append_assoc _ _ _,
      ⟨_, length_toLeBytes 8 account.data.1.length⟩, _, List.append_assoc _ _ _,
      ⟨account.data.1, length⟩, _, List.append_assoc _ _ _, account.owner, _, List.append_assoc _ _ _,
      ⟨[flagByte account.executable], rfl⟩, _, rfl, account.executable, readFlag_eq_some.mpr rfl,
      ⟨_, length_toLeBytes 8 account.rentEpoch.toNat⟩, rest, rfl, ?_⟩
    rw [dif_pos account.data.2]
    simp only [fromLeBytes_word]

/-- `WrappedSolanaAccount::encode`. -/
def encodeWrappedSolanaAccount (account : Account) : List UInt8 := Rlp.standardEncodeVec (bincodeSerialize account)

def WireOf (account : Account) (bytes : List UInt8) : Prop :=
  ∃ padding rest, bytes = Rlp.standardEncodeVec (bincodeSerialize account ++ padding) ++ rest

theorem wireOf_encode (account : Account) : WireOf account (encodeWrappedSolanaAccount account) :=
  ⟨[], [], by simp [encodeWrappedSolanaAccount]⟩

/-- The decoders read what the encoders write, leave what follows it, and read nothing else. -/
structure AccountCodec.Lawful (codec : AccountCodec) : Prop where
  decodeVec : ∀ {buf bytes}, buf.length < 2 ^ 63 →
    (codec.decodeVec buf = .ok bytes ↔ ∃ rest, buf = Rlp.standardEncodeVec bytes ++ rest)
  bincodeDeserialize : ∀ {bytes account},
    codec.bincodeDeserialize bytes = some account ↔ ∃ rest, bytes = bincodeSerialize account ++ rest

def AccountCodec.standard : AccountCodec where
  decodeVec := Rlp.standardDecodeVec
  bincodeDeserialize := State.bincodeDeserialize
  displayError _ := "rlp error"

theorem AccountCodec.standard_lawful : AccountCodec.standard.Lawful where
  decodeVec bound := Rlp.standardDecodeVec_iff (lt_trans bound (by norm_num))
  bincodeDeserialize := bincodeDeserialize_iff

theorem decodeWrappedSolanaAccount_iff {codec : AccountCodec} (lawful : codec.Lawful) {buf : List UInt8}
    (bound : buf.length < 2 ^ 63) {account : Account} :
    decodeWrappedSolanaAccount codec buf = .ok account ↔ WireOf account buf := by
  have reads : decodeWrappedSolanaAccount codec buf = .ok account ↔
      ∃ txBytes, codec.decodeVec buf = .ok txBytes ∧ codec.bincodeDeserialize txBytes = some account := by
    unfold decodeWrappedSolanaAccount
    cases codec.decodeVec buf with
    | error e => simp [bind, Except.bind]
    | ok txBytes =>
        cases read : codec.bincodeDeserialize txBytes with
        | none => simp [bind, Except.bind, read]
        | some other => simp [bind, Except.bind, read]
  rw [reads]
  constructor
  · rintro ⟨txBytes, list, fields⟩
    obtain ⟨rest, rfl⟩ := (lawful.decodeVec bound).mp list
    obtain ⟨padding, rfl⟩ := lawful.bincodeDeserialize.mp fields
    exact ⟨padding, rest, rfl⟩
  · rintro ⟨padding, rest, rfl⟩
    exact ⟨_, (lawful.decodeVec bound).mpr ⟨rest, rfl⟩, lawful.bincodeDeserialize.mpr ⟨padding, rfl⟩⟩

theorem WireOf.unique {account other : Account} {bytes : List UInt8} (bound : bytes.length < 2 ^ 63)
    (wire : WireOf account bytes) (wire' : WireOf other bytes) : account = other := by
  have read := (decodeWrappedSolanaAccount_iff AccountCodec.standard_lawful bound).mpr wire
  have read' := (decodeWrappedSolanaAccount_iff AccountCodec.standard_lawful bound).mpr wire'
  exact Except.ok.inj (read.symm.trans read')

theorem WireOf.nonempty {account : Account} {bytes : List UInt8} (wire : WireOf account bytes) : bytes ≠ [] := by
  rintro rfl
  have decoded := (decodeWrappedSolanaAccount_iff AccountCodec.standard_lawful (by decide)).mpr wire
  cases decoded

end KonaSoon.State
