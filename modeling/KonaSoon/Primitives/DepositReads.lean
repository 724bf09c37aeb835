import KonaSoon.Lib.Reader
import KonaSoon.Primitives.Aliases

namespace KonaSoon
open Lib Mpt Programs

/-! ## Fields at an offset -/

def HasAt (bytes : List UInt8) (offset : Nat) (field : List UInt8) : Prop := field <+: bytes.drop offset

theorem HasAt.length_le {bytes field : List UInt8} {offset : Nat} (has : HasAt bytes offset field) (some : field ≠ []) :
    offset + field.length ≤ bytes.length := by
  have le := List.IsPrefix.length_le has
  have positive := List.length_pos_of_ne_nil some
  rw [List.length_drop] at le
  omega

theorem hasAt_iff {bytes field : List UInt8} {offset : Nat} :
    HasAt bytes offset field ↔ (bytes.drop offset).take field.length = field :=
  List.prefix_iff_eq_take.trans eq_comm

theorem returns_bind {ε α β : Type} {x : Outcome ε α} {f : α → Outcome ε β} :
    Outcome.Returns (x >>= f) ↔ Outcome.Returns x ∧ ∀ a, x = .ok a → Outcome.Returns (f a) := by
  simp only [← Outcome.ends_true_iff]
  exact Outcome.bind_ends_iff

theorem slice_of_le {bytes : List UInt8} {start stop : Nat} (ordered : start ≤ stop) (within : stop ≤ bytes.length) :
    slice bytes start stop = .ok ((bytes.drop start).take (stop - start)) := by
  rw [slice, if_pos ⟨ordered, within⟩, List.drop_take]

theorem slice_to_end {bytes : List UInt8} {start : Nat} (within : start ≤ bytes.length) :
    slice bytes start bytes.length = .ok (bytes.drop start) := by
  rw [slice_of_le within (Nat.le_refl _), List.take_of_length_le (by rw [List.length_drop])]

theorem slice_of_lt {bytes : List UInt8} {start stop : Nat} (short : bytes.length < stop) :
    slice bytes start stop = .error .panic :=
  if_neg fun both => Nat.not_le.mpr short both.2

theorem slice_eq_iff {bytes field : List UInt8} {start stop : Nat} (some : field ≠ []) (size : start + field.length = stop) :
    slice bytes start stop = .ok field ↔ HasAt bytes start field := by
  constructor
  · intro ok
    by_cases within : stop ≤ bytes.length
    · rw [slice_of_le (by omega) within] at ok
      rw [hasAt_iff, ← Except.ok.inj ok, List.length_take, List.length_drop]
      congr 1
      omega
    · rw [slice_of_lt (Nat.not_le.mp within)] at ok
      cases ok
  · intro has
    have le := has.length_le some
    rw [slice_of_le (by omega) (by omega), ← size, Nat.add_sub_cancel_left, hasAt_iff.mp has]

theorem sliceFixed_cases (n : Nat) (bytes : List UInt8) (start : Nat) :
    (∃ field, sliceFixed n bytes start = .ok field ∧ start + n ≤ bytes.length) ∨
      sliceFixed n bytes start = .error .panic ∧ bytes.length < start + n := by
  rcases Nat.lt_or_ge bytes.length (start + n) with short | within
  · refine .inr ⟨?_, short⟩
    rw [sliceFixed, slice_of_lt short]
    rfl
  · have size : ((bytes.drop start).take (start + n - start)).length = n := by
      rw [List.length_take, List.length_drop]
      omega
    refine .inl ⟨⟨_, size⟩, ?_, within⟩
    rw [sliceFixed, slice_of_le (Nat.le_add_right start n) within, ok_bind, dif_pos size]

theorem slice_cases (bytes : List UInt8) {start stop : Nat} (ordered : start ≤ stop) :
    (slice bytes start stop = .ok ((bytes.drop start).take (stop - start)) ∧ stop ≤ bytes.length) ∨
      slice bytes start stop = .error .panic ∧ bytes.length < stop := by
  rcases Nat.lt_or_ge bytes.length stop with short | within
  · exact .inr ⟨slice_of_lt short, short⟩
  · exact .inl ⟨slice_of_le ordered within, within⟩

theorem field_ne_nil {n : Nat} (positive : 0 < n) (field : FixedBytes n) : field.1 ≠ [] :=
  List.ne_nil_of_length_pos (by rw [field.2]; exact positive)

theorem sliceFixed_eq_iff {n start : Nat} {bytes : List UInt8} {field : FixedBytes n} (positive : 0 < n) :
    sliceFixed n bytes start = .ok field ↔ HasAt bytes start field.1 := by
  rw [← @slice_eq_iff bytes field.1 start (start + n) (field_ne_nil positive field) (by rw [field.2]), sliceFixed, bind_eq_ok]
  constructor
  · rintro ⟨taken, ok, made⟩
    split at made
    · cases made
      exact ok
    · cases made
  · intro ok
    refine ⟨field.1, ok, ?_⟩
    rw [dif_pos field.2]

/-! ## Calls of the bridge -/

structure EthCall (call : List UInt8) (data : EthDepositData) : Prop where
  sender : HasAt call 12 data.sender.1
  recipient : HasAt call 32 data.recipient.1
  amount : ∃ word : FixedBytes 32, HasAt call 64 word.1 ∧ data.amount = u256FromBeSlice word
  extraData : data.extraData = (call.drop 96 ++ List.replicate 32 0).take 32

structure Erc20Call (call : List UInt8) (data : Erc20DepositData) : Prop where
  l2Contract : HasAt call 0 data.l2Contract.1
  l1Contract : HasAt call 44 data.l1Contract.1
  sender : HasAt call 76 data.sender.1
  recipient : HasAt call 96 data.recipient.1
  amount : ∃ word : FixedBytes 32, HasAt call 128 word.1 ∧ data.amount = u256FromBeSlice word

theorem EthDepositData.tryFrom_cases (value : List UInt8) :
    (96 ≤ value.length ∧ ∃ data, EthDepositData.tryFrom value = .ok data) ∨
      value.length < 96 ∧ EthDepositData.tryFrom value = .error .panic := by
  rcases sliceFixed_cases 20 value 12 with ⟨sender, senderOk, -⟩ | ⟨stops, short⟩
  · rcases sliceFixed_cases 32 value 32 with ⟨recipient, recipientOk, -⟩ | ⟨stops, short⟩
    · rcases sliceFixed_cases 32 value 64 with ⟨amount, amountOk, long⟩ | ⟨stops, short⟩
      · refine .inl ⟨long, ⟨sender, recipient, u256FromBeSlice amount, (value.drop 96 ++ List.replicate 32 0).take 32⟩, ?_⟩
        rw [EthDepositData.tryFrom, senderOk, ok_bind, recipientOk, ok_bind, amountOk, ok_bind, slice_to_end long, ok_bind]
        rfl
      · refine .inr ⟨by omega, ?_⟩
        rw [EthDepositData.tryFrom, senderOk, ok_bind, recipientOk, ok_bind, stops]
        rfl
    · refine .inr ⟨by omega, ?_⟩
      rw [EthDepositData.tryFrom, senderOk, ok_bind, stops]
      rfl
  · refine .inr ⟨by omega, ?_⟩
    rw [EthDepositData.tryFrom, stops]
    rfl

theorem EthDepositData.tryFrom_eq_iff {value : List UInt8} {data : EthDepositData} :
    EthDepositData.tryFrom value = .ok data ↔ EthCall value data := by
  simp only [EthDepositData.tryFrom, bind_eq_ok, sliceFixed_eq_iff (by decide : 0 < 20), sliceFixed_eq_iff (by decide : 0 < 32)]
  constructor
  · rintro ⟨sender, senderAt, recipient, recipientAt, amount, amountAt, extraData, rest, made⟩
    cases made
    have long := amountAt.length_le (field_ne_nil (by decide) amount)
    rw [amount.2] at long
    rw [slice_to_end long] at rest
    cases rest
    exact ⟨senderAt, recipientAt, ⟨amount, amountAt, rfl⟩, rfl⟩
  · rintro ⟨sender, recipient, ⟨amount, amountAt, same⟩, extraData⟩
    have long := amountAt.length_le (field_ne_nil (by decide) amount)
    rw [amount.2] at long
    refine ⟨data.sender, sender, data.recipient, recipient, amount, amountAt, _, slice_to_end long, ?_⟩
    rw [← extraData, ← same]
    rfl

theorem Erc20DepositData.tryFrom_cases (value : List UInt8) :
    (160 ≤ value.length ∧ ∃ data, Erc20DepositData.tryFrom value = .ok data) ∨
      value.length < 160 ∧ Erc20DepositData.tryFrom value = .error .panic := by
  rcases sliceFixed_cases 32 value 0 with ⟨l2Contract, l2Ok, -⟩ | ⟨stops, short⟩
  · rcases sliceFixed_cases 20 value 44 with ⟨l1Contract, l1Ok, -⟩ | ⟨stops, short⟩
    · rcases sliceFixed_cases 20 value 76 with ⟨sender, senderOk, -⟩ | ⟨stops, short⟩
      · rcases sliceFixed_cases 32 value 96 with ⟨recipient, recipientOk, -⟩ | ⟨stops, short⟩
        · rcases sliceFixed_cases 32 value 128 with ⟨amount, amountOk, long⟩ | ⟨stops, short⟩
          · refine .inl ⟨long, ⟨l2Contract, l1Contract, sender, recipient, u256FromBeSlice amount⟩, ?_⟩
            rw [Erc20DepositData.tryFrom, l2Ok, ok_bind, l1Ok, ok_bind, senderOk, ok_bind, recipientOk, ok_bind, amountOk,
              ok_bind, slice_to_end long, ok_bind]
            rfl
          · refine .inr ⟨by omega, ?_⟩
            rw [Erc20DepositData.tryFrom, l2Ok, ok_bind, l1Ok, ok_bind, senderOk, ok_bind, recipientOk, ok_bind, stops]
            rfl
        · refine .inr ⟨by omega, ?_⟩
          rw [Erc20DepositData.tryFrom, l2Ok, ok_bind, l1Ok, ok_bind, senderOk, ok_bind, stops]
          rfl
      · refine .inr ⟨by omega, ?_⟩
        rw [Erc20DepositData.tryFrom, l2Ok, ok_bind, l1Ok, ok_bind, stops]
        rfl
    · refine .inr ⟨by omega, ?_⟩
      rw [Erc20DepositData.tryFrom, l2Ok, ok_bind, stops]
      rfl
  · refine .inr ⟨by omega, ?_⟩
    rw [Erc20DepositData.tryFrom, stops]
    rfl

theorem Erc20DepositData.tryFrom_eq_iff {value : List UInt8} {data : Erc20DepositData} :
    Erc20DepositData.tryFrom value = .ok data ↔ Erc20Call value data := by
  simp only [Erc20DepositData.tryFrom, bind_eq_ok, sliceFixed_eq_iff (by decide : 0 < 20), sliceFixed_eq_iff (by decide : 0 < 32)]
  constructor
  · rintro ⟨l2Contract, l2At, l1Contract, l1At, sender, senderAt, recipient, recipientAt, amount, amountAt, extraData, -, made⟩
    cases made
    exact ⟨l2At, l1At, senderAt, recipientAt, amount, amountAt, rfl⟩
  · rintro ⟨l2At, l1At, senderAt, recipientAt, amount, amountAt, same⟩
    have long := amountAt.length_le (field_ne_nil (by decide) amount)
    rw [amount.2] at long
    refine ⟨data.l2Contract, l2At, data.l1Contract, l1At, data.sender, senderAt, data.recipient, recipientAt, amount,
      amountAt, _, slice_to_end long, ?_⟩
    rw [← same]
    rfl

inductive IsCall (body : List UInt8) : DepositType → Prop where
  | eth {data : EthDepositData} (selector : HasAt body 301 ethDepositSelector) (call : EthCall (body.drop 305) data) :
      IsCall body (.eth data)
  | erc20 {data : Erc20DepositData} (selector : HasAt body 301 erc20DepositSelector)
      (call : Erc20Call (body.drop 305) data) : IsCall body (.erc20 data)

theorem IsCall.selector {body : List UInt8} {type : DepositType} (call : IsCall body type) :
    HasAt body 301 ethDepositSelector ∨ HasAt body 301 erc20DepositSelector := by
  cases call with
  | eth selector _ => exact .inl selector
  | erc20 selector _ => exact .inr selector

def CallFits (body : List UInt8) : Prop :=
  (HasAt body 301 ethDepositSelector → 401 ≤ body.length) ∧ (HasAt body 301 erc20DepositSelector → 465 ≤ body.length)

theorem selectors_differ {body : List UInt8} (eth : HasAt body 301 ethDepositSelector)
    (erc20 : HasAt body 301 erc20DepositSelector) : False := by
  have first : (body.drop 301).take 4 = ethDepositSelector := hasAt_iff.mp eth
  have second : (body.drop 301).take 4 = erc20DepositSelector := hasAt_iff.mp erc20
  exact absurd (first.symm.trans second) (by decide)

theorem DepositType.tryFrom_eth {body : List UInt8} (eth : HasAt body 301 ethDepositSelector) :
    DepositType.tryFrom (body.drop 301) = (EthDepositData.tryFrom (body.drop 305)).map .eth := by
  have here : HasAt (body.drop 301) 0 ethDepositSelector := by rwa [HasAt, List.drop_zero]
  have selector : slice (body.drop 301) 0 4 = .ok ethDepositSelector := (slice_eq_iff (by decide) rfl).mpr here
  rw [DepositType.tryFrom, selector, ok_bind, if_pos rfl, List.drop_drop]
  cases EthDepositData.tryFrom (body.drop (301 + 4)) with
  | ok data => rfl
  | error stop => rfl

theorem DepositType.tryFrom_erc20 {body : List UInt8} (erc20 : HasAt body 301 erc20DepositSelector) :
    DepositType.tryFrom (body.drop 301) = (Erc20DepositData.tryFrom (body.drop 305)).map .erc20 := by
  have here : HasAt (body.drop 301) 0 erc20DepositSelector := by rwa [HasAt, List.drop_zero]
  have selector : slice (body.drop 301) 0 4 = .ok erc20DepositSelector := (slice_eq_iff (by decide) rfl).mpr here
  rw [DepositType.tryFrom, selector, ok_bind, if_neg (by decide), if_pos rfl, List.drop_drop]
  cases Erc20DepositData.tryFrom (body.drop (301 + 4)) with
  | ok data => rfl
  | error stop => rfl

theorem DepositType.tryFrom_returns_iff {body : List UInt8}
    (either : HasAt body 301 ethDepositSelector ∨ HasAt body 301 erc20DepositSelector) :
    Outcome.Returns (DepositType.tryFrom (body.drop 301)) ↔ CallFits body := by
  have size : (body.drop 305).length = body.length - 305 := List.length_drop
  rcases either with eth | erc20
  · have fits : CallFits body ↔ 401 ≤ body.length :=
      ⟨fun fits => fits.1 eth, fun long => ⟨fun _ => long, fun erc20 => (selectors_differ eth erc20).elim⟩⟩
    rw [fits, DepositType.tryFrom_eth eth]
    rcases EthDepositData.tryFrom_cases (body.drop 305) with ⟨long, data, ok⟩ | ⟨short, stops⟩
    · rw [ok]
      exact ⟨fun _ => by omega, fun _ => trivial⟩
    · rw [stops]
      exact ⟨False.elim, fun long => by omega⟩
  · have fits : CallFits body ↔ 465 ≤ body.length :=
      ⟨fun fits => fits.2 erc20, fun long => ⟨fun eth => (selectors_differ eth erc20).elim, fun _ => long⟩⟩
    rw [fits, DepositType.tryFrom_erc20 erc20]
    rcases Erc20DepositData.tryFrom_cases (body.drop 305) with ⟨long, data, ok⟩ | ⟨short, stops⟩
    · rw [ok]
      exact ⟨fun _ => by omega, fun _ => trivial⟩
    · rw [stops]
      exact ⟨False.elim, fun long => by omega⟩

theorem outcome_map_eq_ok {ε α β : Type} {f : α → β} {x : Outcome ε α} {b : β} : x.map f = .ok b ↔ ∃ a, x = .ok a ∧ f a = b := by
  cases x with
  | ok a => simp [Except.map]
  | error stop => simp [Except.map]

theorem DepositType.tryFrom_eq_iff {body : List UInt8} {type : DepositType}
    (either : HasAt body 301 ethDepositSelector ∨ HasAt body 301 erc20DepositSelector) :
    DepositType.tryFrom (body.drop 301) = .ok type ↔ IsCall body type := by
  rcases either with eth | erc20
  · rw [DepositType.tryFrom_eth eth, outcome_map_eq_ok]
    constructor
    · rintro ⟨data, ok, rfl⟩
      exact .eth eth (EthDepositData.tryFrom_eq_iff.mp ok)
    · intro call
      cases call with
      | eth _ call => exact ⟨_, EthDepositData.tryFrom_eq_iff.mpr call, rfl⟩
      | erc20 erc20 _ => exact (selectors_differ eth erc20).elim
  · rw [DepositType.tryFrom_erc20 erc20, outcome_map_eq_ok]
    constructor
    · rintro ⟨data, ok, rfl⟩
      exact .erc20 erc20 (Erc20DepositData.tryFrom_eq_iff.mp ok)
    · intro call
      cases call with
      | eth eth _ => exact (selectors_differ eth erc20).elim
      | erc20 _ call => exact ⟨_, Erc20DepositData.tryFrom_eq_iff.mpr call, rfl⟩

/-! ## Messages -/

structure Relayed (body : List UInt8) (ext : ExternalData) : Prop where
  mint : ∃ word : FixedBytes 32, HasAt body 0 word.1 ∧ ext.mint = u256FromBeSlice word
  gas : ∃ bytes : FixedBytes 8, HasAt body 64 bytes.1 ∧ ext.gas = UInt64.ofNat (ofBigEndian bytes.1)
  isCreation : ∃ byte, HasAt body 72 [byte] ∧ ext.isCreation = decide (byte ≠ 0)
  selector : HasAt body 73 crossDomainMessengerRelaySelector
  sender : HasAt body 121 ext.sender.1
  target : HasAt body 141 ext.target.1

theorem bytesLength_ge (rlp : Rlp) {bytes : List UInt8} (long : 2 ≤ bytes.length) : bytes.length ≤ rlp.bytesLength bytes := by
  have several : Rlp.selfEncoded bytes = false := by
    obtain _ | ⟨first, _ | ⟨second, rest⟩⟩ := bytes
    · rfl
    · exact absurd long (by simp)
    · rfl
  rw [Rlp.bytesLength, several]
  exact Nat.le_add_left _ _

theorem length_of_bytesLength (rlp : Rlp) {bytes : List UInt8} (passes : ¬ rlp.bytesLength bytes < 305) : 296 ≤ bytes.length := by
  unfold Rlp.bytesLength at passes
  split at passes
  · omega
  · by_contra short
    have := rlp.lengthOfLength_le bytes.length (by omega)
    omega

theorem gas_field {body gas : List UInt8} (ok : slice body 64 72 = .ok gas) : gas.length = 8 ∧ HasAt body 64 gas := by
  rcases slice_cases body (by decide : 64 ≤ 72) with ⟨same, long⟩ | ⟨stops, -⟩
  · rw [same] at ok
    cases ok
    have size : ((body.drop 64).take (72 - 64)).length = 8 := by
      rw [List.length_take, List.length_drop]
      omega
    exact ⟨size, List.take_prefix _ _⟩
  · rw [stops] at ok
    cases ok

theorem creation_field {body flag : List UInt8} (ok : slice body 72 73 = .ok flag) : ∃ byte, flag = [byte] ∧ HasAt body 72 [byte] := by
  rcases slice_cases body (by decide : 72 ≤ 73) with ⟨same, long⟩ | ⟨stops, -⟩
  · rw [same] at ok
    cases ok
    have size : ((body.drop 72).take (73 - 72)).length = 1 := by
      rw [List.length_take, List.length_drop]
      omega
    obtain ⟨byte, single⟩ := List.length_eq_one_iff.mp size
    exact ⟨byte, single, single ▸ List.take_prefix _ _⟩
  · rw [stops] at ok
    cases ok

theorem ExternalData.extract_eq_iff {rlp : Rlp} {body rest : List UInt8} {ext : ExternalData} :
    ExternalData.extract rlp body = .ok (ext, rest) ↔ 305 ≤ rlp.bytesLength body ∧ Relayed body ext ∧
      (HasAt body 301 ethDepositSelector ∨ HasAt body 301 erc20DepositSelector) ∧ rest = body.drop 301 := by
  constructor
  · intro ok
    unfold ExternalData.extract at ok
    split at ok
    · cases ok
    · rename_i passes
      simp only [bind_eq_ok] at ok
      obtain ⟨mint, mintOk, value, -, gas, gasOk, flag, flagOk, relay, relayOk, ok⟩ := ok
      split at ok
      · cases ok
      · rename_i relays
        simp only [bind_eq_ok] at ok
        obtain ⟨sender, senderOk, target, targetOk, selector, selectorOk, ok⟩ := ok
        split at ok
        · cases ok
        · rename_i known
          simp only [bind_eq_ok] at ok
          obtain ⟨tail, tailOk, made⟩ := ok
          cases made
          have either : selector = ethDepositSelector ∨ selector = erc20DepositSelector := by
            by_contra neither
            exact known (not_or.mp neither)
          have long : 301 ≤ body.length := by
            rcases slice_cases body (by decide : 301 ≤ 305) with ⟨-, long⟩ | ⟨stops, -⟩
            · omega
            · rw [stops] at selectorOk
              cases selectorOk
          rw [slice_to_end long] at tailOk
          cases tailOk
          obtain ⟨size, gasAt⟩ := gas_field gasOk
          obtain ⟨byte, rfl, flagAt⟩ := creation_field flagOk
          rw [not_not.mp relays] at relayOk
          refine ⟨Nat.not_lt.mp passes, ⟨⟨mint, (sliceFixed_eq_iff (by decide)).mp mintOk, rfl⟩, ⟨⟨gas, size⟩, gasAt, rfl⟩,
            ⟨byte, flagAt, by simp⟩, (slice_eq_iff (by decide) rfl).mp relayOk, (sliceFixed_eq_iff (by decide)).mp senderOk,
            (sliceFixed_eq_iff (by decide)).mp targetOk⟩, ?_, rfl⟩
          rcases either with rfl | rfl
          · exact .inl ((slice_eq_iff (by decide) rfl).mp selectorOk)
          · exact .inr ((slice_eq_iff (by decide) rfl).mp selectorOk)
  · rintro ⟨passes, ⟨⟨mint, mintAt, mintIs⟩, ⟨gas, gasAt, gasIs⟩, ⟨byte, byteAt, creationIs⟩, relays, sender, target⟩, either, rfl⟩
    have long : 305 ≤ body.length := by
      rcases either with eth | erc20
      · exact eth.length_le (by decide)
      · exact erc20.length_le (by decide)
    have selectorOk : ∃ selector, slice body 301 305 = .ok selector ∧
        ¬ (selector ≠ ethDepositSelector ∧ selector ≠ erc20DepositSelector) := by
      rcases either with eth | erc20
      · exact ⟨_, (slice_eq_iff (by decide) rfl).mpr eth, by simp⟩
      · exact ⟨_, (slice_eq_iff (by decide) rfl).mpr erc20, by simp⟩
    obtain ⟨selector, selectorOk, known⟩ := selectorOk
    have flagOk : slice body 72 73 = .ok [byte] := (slice_eq_iff (by simp) rfl).mpr byteAt
    have relayOk : slice body 73 77 = .ok crossDomainMessengerRelaySelector := (slice_eq_iff (by decide) rfl).mpr relays
    have gasOk : slice body 64 72 = .ok gas.1 := (slice_eq_iff (field_ne_nil (by decide) gas) (by rw [gas.2])).mpr gasAt
    rw [ExternalData.extract, if_neg (Nat.not_lt.mpr passes), (sliceFixed_eq_iff (by decide)).mpr mintAt, ok_bind,
      slice_of_le (by decide : 32 ≤ 64) (by omega), ok_bind, gasOk, ok_bind,
      flagOk, ok_bind, relayOk, ok_bind, if_neg (by simp), (sliceFixed_eq_iff (by decide)).mpr sender, ok_bind,
      (sliceFixed_eq_iff (by decide)).mpr target, ok_bind, selectorOk, ok_bind, if_neg known, slice_to_end (by omega : 301 ≤ body.length), ok_bind]
    obtain ⟨sender', target', mint', gas', isCreation'⟩ := ext
    dsimp only at mintIs gasIs creationIs
    subst mintIs gasIs creationIs
    simp [pure, Except.pure]

def SelectorFits (rlp : Rlp) (body : List UInt8) : Prop :=
  305 ≤ rlp.bytesLength body → HasAt body 73 crossDomainMessengerRelaySelector → 305 ≤ body.length

theorem ExternalData.extract_returns_iff {rlp : Rlp} {body : List UInt8} :
    Outcome.Returns (ExternalData.extract rlp body) ↔ SelectorFits rlp body := by
  by_cases guard : rlp.bytesLength body < 305
  · rw [ExternalData.extract, if_pos guard]
    exact ⟨fun _ passes => absurd guard (Nat.not_lt.mpr passes), fun _ => trivial⟩
  · have long := length_of_bytesLength rlp guard
    obtain ⟨mint, mintOk⟩ : ∃ mint, sliceFixed 32 body 0 = .ok mint := by
      rcases sliceFixed_cases 32 body 0 with ⟨mint, ok, -⟩ | ⟨-, short⟩
      · exact ⟨mint, ok⟩
      · omega
    rw [ExternalData.extract, if_neg guard, mintOk, ok_bind, slice_of_le (by decide : 32 ≤ 64) (by omega), ok_bind,
      slice_of_le (by decide : 64 ≤ 72) (by omega), ok_bind, slice_of_le (by decide : 72 ≤ 73) (by omega), ok_bind,
      slice_of_le (by decide : 73 ≤ 77) (by omega), ok_bind]
    by_cases relays : HasAt body 73 crossDomainMessengerRelaySelector
    · obtain ⟨sender, senderOk⟩ : ∃ sender, sliceFixed 20 body 121 = .ok sender := by
        rcases sliceFixed_cases 20 body 121 with ⟨sender, ok, -⟩ | ⟨-, short⟩
        · exact ⟨sender, ok⟩
        · omega
      obtain ⟨target, targetOk⟩ : ∃ target, sliceFixed 32 body 141 = .ok target := by
        rcases sliceFixed_cases 32 body 141 with ⟨target, ok, -⟩ | ⟨-, short⟩
        · exact ⟨target, ok⟩
        · omega
      have same : (body.drop 73).take (77 - 73) = crossDomainMessengerRelaySelector := hasAt_iff.mp relays
      rw [if_neg (not_not.mpr same), senderOk, ok_bind, targetOk, ok_bind]
      rcases slice_cases body (by decide : 301 ≤ 305) with ⟨ok, enough⟩ | ⟨stops, short⟩
      · rw [ok, ok_bind]
        refine ⟨fun _ _ _ => enough, fun _ => ?_⟩
        split
        · trivial
        · rw [slice_to_end (by omega : 301 ≤ body.length)]
          trivial
      · rw [stops]
        exact ⟨False.elim, fun fits => absurd (fits (Nat.not_lt.mp guard) relays) (Nat.not_le.mpr short)⟩
    · have differ : (body.drop 73).take (77 - 73) ≠ crossDomainMessengerRelaySelector := fun same => relays (hasAt_iff.mpr same)
      rw [if_pos differ]
      exact ⟨fun _ _ here => absurd here relays, fun _ => trivial⟩

/-! ## Logs -/

def Log.body (log : Log) : List UInt8 := log.data.drop 64

def FromMessenger (contracts : DepositContracts) (log : Log) : Prop :=
  ∃ word, log.topics[1]? = some word ∧ undoL1ToL2Alias (addressFromWord word) = .ok contracts.l1CrossDomainMessenger

def ToBridge (log : Log) : Prop := log.topics[2]? = some soonBridgePubkey

def FromBridge (contracts : DepositContracts) (body : List UInt8) : Prop :=
  HasAt body 121 contracts.l1StandardBridge.1 ∧ HasAt body 141 soonBridgePubkey.1

structure LogReadable (rlp : Rlp) (contracts : DepositContracts) (log : Log) : Prop where
  offsets : 64 ≤ log.data.length
  sender : 2 ≤ log.topics.length
  target : FromMessenger contracts log → 3 ≤ log.topics.length
  selector : FromMessenger contracts log → ToBridge log → SelectorFits rlp log.body
  call : FromMessenger contracts log → ToBridge log → HasAt log.body 73 crossDomainMessengerRelaySelector →
    FromBridge contracts log.body → CallFits log.body

structure IsDeposit (contracts : DepositContracts) (l1BlockNum : UInt64) (l1BlockHash : B256) (logIndex : UInt64) (log : Log)
    (deposit : UserDeposited) : Prop where
  offsets : 64 ≤ log.data.length
  messenger : FromMessenger contracts log
  bridge : ToBridge log
  relayed : ∃ ext, Relayed log.body ext ∧ ext.sender = contracts.l1StandardBridge ∧ ext.target = soonBridgePubkey ∧
    deposit.mint = ext.mint ∧ deposit.gas = ext.gas ∧ deposit.isCreation = ext.isCreation
  call : IsCall log.body deposit.depositType
  bridgeSender : deposit.bridgeSender = contracts.l1CrossDomainMessenger
  place : deposit.l1BlockNum = l1BlockNum ∧ deposit.l1BlockHash = l1BlockHash ∧ deposit.logIndex = logIndex

theorem hasAt_unique {n : Nat} {bytes : List UInt8} {offset : Nat} {field other : FixedBytes n}
    (has : HasAt bytes offset field.1) (has' : HasAt bytes offset other.1) : field = other := by
  have first := hasAt_iff.mp has
  have second := hasAt_iff.mp has'
  rw [field.2] at first
  rw [other.2] at second
  exact Subtype.ext (first.symm.trans second)

theorem Relayed.fromBridge_iff {body : List UInt8} {ext : ExternalData} {contracts : DepositContracts}
    (relayed : Relayed body ext) :
    FromBridge contracts body ↔ ext.sender = contracts.l1StandardBridge ∧ ext.target = soonBridgePubkey := by
  constructor
  · rintro ⟨sender, target⟩
    exact ⟨hasAt_unique relayed.sender sender, hasAt_unique relayed.target target⟩
  · rintro ⟨sender, target⟩
    exact ⟨sender ▸ relayed.sender, target ▸ relayed.target⟩

theorem hasAt_of_length {n start : Nat} {body : List UInt8} (positive : 0 < n) (long : start + n ≤ body.length) :
    ∃ field : FixedBytes n, HasAt body start field.1 := by
  rcases sliceFixed_cases n body start with ⟨field, ok, -⟩ | ⟨-, short⟩
  · exact ⟨field, (sliceFixed_eq_iff positive).mp ok⟩
  · omega

theorem ExternalData.extract_ok (rlp : Rlp) {body : List UInt8} (relays : HasAt body 73 crossDomainMessengerRelaySelector)
    (either : HasAt body 301 ethDepositSelector ∨ HasAt body 301 erc20DepositSelector) :
    ∃ ext, ExternalData.extract rlp body = .ok (ext, body.drop 301) := by
  have long : 305 ≤ body.length := by
    rcases either with eth | erc20
    · exact eth.length_le (by decide)
    · exact erc20.length_le (by decide)
  obtain ⟨mint, mintAt⟩ := hasAt_of_length (by decide : 0 < 32) (by omega : 0 + 32 ≤ body.length)
  obtain ⟨gas, gasAt⟩ := hasAt_of_length (by decide : 0 < 8) (by omega : 64 + 8 ≤ body.length)
  obtain ⟨flag, flagAt⟩ := hasAt_of_length (by decide : 0 < 1) (by omega : 72 + 1 ≤ body.length)
  obtain ⟨sender, senderAt⟩ := hasAt_of_length (by decide : 0 < 20) (by omega : 121 + 20 ≤ body.length)
  obtain ⟨target, targetAt⟩ := hasAt_of_length (by decide : 0 < 32) (by omega : 141 + 32 ≤ body.length)
  obtain ⟨byte, single⟩ := List.length_eq_one_iff.mp flag.2
  rw [single] at flagAt
  refine ⟨⟨sender, target, u256FromBeSlice mint, UInt64.ofNat (ofBigEndian gas.1), decide (byte ≠ 0)⟩, ?_⟩
  exact ExternalData.extract_eq_iff.mpr ⟨long.trans (bytesLength_ge rlp (by omega)), ⟨⟨mint, mintAt, rfl⟩, ⟨gas, gasAt, rfl⟩,
    ⟨byte, flagAt, rfl⟩, relays, senderAt, targetAt⟩, either, rfl⟩

def parseMessage (rlp : Rlp) (contracts : DepositContracts) (l1BlockNum : UInt64) (l1BlockHash : B256) (logIndex : UInt64)
    (body : List UInt8) : Outcome DepositLogError UserDeposited := do
  let (ext, data) ← ExternalData.extract rlp body
  if ext.sender ≠ contracts.l1StandardBridge then .error (.error (.invalidL1StandardBridge ext.sender))
  else if ext.target ≠ soonBridgePubkey then .error (.error (.invalidL2StandardBridge ext.target))
  else
    let depositType ← DepositType.tryFrom data
    return ⟨contracts.l1CrossDomainMessenger, ext.mint, ext.gas, ext.isCreation, l1BlockNum, l1BlockHash, logIndex, depositType⟩

variable {rlp : Rlp} {contracts : DepositContracts} {l1BlockNum : UInt64} {l1BlockHash : B256} {logIndex : UInt64}

theorem parseMessage_returns_iff {body : List UInt8} :
    Outcome.Returns (parseMessage rlp contracts l1BlockNum l1BlockHash logIndex body) ↔ SelectorFits rlp body ∧
      (HasAt body 73 crossDomainMessengerRelaySelector → FromBridge contracts body → CallFits body) := by
  rw [parseMessage, returns_bind, ExternalData.extract_returns_iff]
  refine and_congr_right fun fits => ?_
  constructor
  · intro returns relays bridge
    by_cases either : HasAt body 301 ethDepositSelector ∨ HasAt body 301 erc20DepositSelector
    · obtain ⟨ext, ok⟩ := ExternalData.extract_ok rlp relays either
      obtain ⟨-, relayed, -⟩ := ExternalData.extract_eq_iff.mp ok
      obtain ⟨sender, target⟩ := relayed.fromBridge_iff.mp bridge
      have later := returns _ ok
      dsimp only at later
      rw [if_neg (not_not.mpr sender), if_neg (not_not.mpr target), returns_bind] at later
      exact (DepositType.tryFrom_returns_iff either).mp later.1
    · exact ⟨fun eth => absurd (.inl eth) either, fun erc20 => absurd (.inr erc20) either⟩
  · rintro call ⟨ext, data⟩ ok
    obtain ⟨-, relayed, either, rfl⟩ := ExternalData.extract_eq_iff.mp ok
    dsimp only
    by_cases sender : ext.sender ≠ contracts.l1StandardBridge
    · rw [if_pos sender]
      trivial
    · rw [if_neg sender]
      by_cases target : ext.target ≠ soonBridgePubkey
      · rw [if_pos target]
        trivial
      · rw [if_neg target, returns_bind]
        have bridge := relayed.fromBridge_iff.mpr ⟨not_not.mp sender, not_not.mp target⟩
        exact ⟨(DepositType.tryFrom_returns_iff either).mpr (call relayed.selector bridge), fun _ _ => trivial⟩

theorem parseMessage_eq_iff {body : List UInt8} {deposit : UserDeposited} :
    parseMessage rlp contracts l1BlockNum l1BlockHash logIndex body = .ok deposit ↔
      (∃ ext, Relayed body ext ∧ ext.sender = contracts.l1StandardBridge ∧ ext.target = soonBridgePubkey ∧
        deposit.mint = ext.mint ∧ deposit.gas = ext.gas ∧ deposit.isCreation = ext.isCreation) ∧
      IsCall body deposit.depositType ∧ deposit.bridgeSender = contracts.l1CrossDomainMessenger ∧
      deposit.l1BlockNum = l1BlockNum ∧ deposit.l1BlockHash = l1BlockHash ∧ deposit.logIndex = logIndex := by
  rw [parseMessage, bind_eq_ok]
  constructor
  · rintro ⟨⟨ext, data⟩, ok, parses⟩
    obtain ⟨-, relayed, either, rfl⟩ := ExternalData.extract_eq_iff.mp ok
    dsimp only at parses
    split at parses
    · cases parses
    · rename_i sender
      split at parses
      · cases parses
      · rename_i target
        obtain ⟨type, typed, made⟩ := bind_eq_ok.mp parses
        cases made
        exact ⟨⟨ext, relayed, not_not.mp sender, not_not.mp target, rfl, rfl, rfl⟩,
          (DepositType.tryFrom_eq_iff either).mp typed, rfl, rfl, rfl, rfl⟩
  · rintro ⟨⟨ext, relayed, sender, target, mint, gas, isCreation⟩, call, bridgeSender, num, hash, index⟩
    have either := call.selector
    have long : 305 ≤ body.length := by
      rcases either with eth | erc20
      · exact eth.length_le (by decide)
      · exact erc20.length_le (by decide)
    refine ⟨(ext, body.drop 301),
      ExternalData.extract_eq_iff.mpr ⟨long.trans (bytesLength_ge rlp (by omega)), relayed, either, rfl⟩, ?_⟩
    dsimp only
    rw [if_neg (not_not.mpr sender), if_neg (not_not.mpr target), (DepositType.tryFrom_eq_iff either).mpr call, ok_bind]
    obtain ⟨bridgeSender', mint', gas', isCreation', num', hash', index', type'⟩ := deposit
    dsimp only at mint gas isCreation bridgeSender num hash index ⊢
    subst mint gas isCreation bridgeSender num hash index
    rfl

theorem parseFromLog_of_message {log : Log} (offsets : 64 ≤ log.data.length) (messenger : FromMessenger contracts log)
    (bridge : ToBridge log) :
    UserDeposited.parseFromLog rlp l1BlockNum l1BlockHash logIndex log contracts.l1CrossDomainMessenger
      contracts.l1StandardBridge = parseMessage rlp contracts l1BlockNum l1BlockHash logIndex log.body := by
  obtain ⟨word, topic, undone⟩ := messenger
  rw [UserDeposited.parseFromLog, slice_to_end offsets, ok_bind, topic, Outcome.unwrap_some, ok_bind, undone, ok_bind,
    if_neg (by simp), bridge, Outcome.unwrap_some, ok_bind, if_neg (by simp)]
  rfl

theorem parseFromLog_returns_iff {log : Log} :
    Outcome.Returns (UserDeposited.parseFromLog rlp l1BlockNum l1BlockHash logIndex log contracts.l1CrossDomainMessenger
      contracts.l1StandardBridge) ↔ LogReadable rlp contracts log := by
  by_cases offsets : 64 ≤ log.data.length
  · cases topic : log.topics[1]? with
    | none =>
        have short : log.topics.length ≤ 1 := List.getElem?_eq_none_iff.mp topic
        rw [UserDeposited.parseFromLog, slice_to_end offsets, ok_bind, topic]
        exact ⟨False.elim, fun readable => absurd readable.sender (by omega)⟩
    | some word =>
        have two : 2 ≤ log.topics.length := (List.getElem?_eq_some_iff.mp topic).1
        obtain ⟨address, undone⟩ := undoL1ToL2Alias_ok (addressFromWord word)
        by_cases messenger : address = contracts.l1CrossDomainMessenger
        · subst messenger
          have from_ : FromMessenger contracts log := ⟨word, topic, undone⟩
          cases target : log.topics[2]? with
          | none =>
              have short : log.topics.length ≤ 2 := List.getElem?_eq_none_iff.mp target
              rw [UserDeposited.parseFromLog, slice_to_end offsets, ok_bind, topic, Outcome.unwrap_some, ok_bind, undone,
                ok_bind, if_neg (by simp), target]
              exact ⟨False.elim, fun readable => absurd (readable.target from_) (by omega)⟩
          | some key =>
              have three : 3 ≤ log.topics.length := (List.getElem?_eq_some_iff.mp target).1
              by_cases bridge : key = soonBridgePubkey
              · subst bridge
                rw [parseFromLog_of_message offsets from_ target, parseMessage_returns_iff]
                exact ⟨fun fits => ⟨offsets, two, fun _ => three, fun _ _ => fits.1, fun _ _ => fits.2⟩,
                  fun readable => ⟨readable.selector from_ target, readable.call from_ target⟩⟩
              · have elsewhere : ¬ ToBridge log := fun there => bridge (Option.some.inj (target.symm.trans there))
                rw [UserDeposited.parseFromLog, slice_to_end offsets, ok_bind, topic, Outcome.unwrap_some, ok_bind, undone,
                  ok_bind, if_neg (by simp), target, Outcome.unwrap_some, ok_bind, if_pos bridge]
                exact ⟨fun _ => ⟨offsets, two, fun _ => three, fun _ there => absurd there elsewhere,
                  fun _ there => absurd there elsewhere⟩, fun _ => trivial⟩
        · have other : ¬ FromMessenger contracts log := by
            rintro ⟨word', topic', undone'⟩
            cases topic.symm.trans topic'
            exact messenger (Except.ok.inj (undone.symm.trans undone'))
          rw [UserDeposited.parseFromLog, slice_to_end offsets, ok_bind, topic, Outcome.unwrap_some, ok_bind, undone,
            ok_bind, if_pos messenger]
          exact ⟨fun _ => ⟨offsets, two, fun here => absurd here other, fun here => absurd here other,
            fun here => absurd here other⟩, fun _ => trivial⟩
  · rw [UserDeposited.parseFromLog, slice, if_neg (fun both => offsets both.1)]
    exact ⟨False.elim, fun readable => absurd readable.offsets offsets⟩

theorem parseFromLog_eq_iff {log : Log} {deposit : UserDeposited} :
    UserDeposited.parseFromLog rlp l1BlockNum l1BlockHash logIndex log contracts.l1CrossDomainMessenger
      contracts.l1StandardBridge = .ok deposit ↔ IsDeposit contracts l1BlockNum l1BlockHash logIndex log deposit := by
  constructor
  · intro parses
    have reads := parses
    simp only [UserDeposited.parseFromLog, bind_eq_ok] at reads
    obtain ⟨body, cut, word, topic, bridgeSender, undone, reads⟩ := reads
    have offsets : 64 ≤ log.data.length := by
      unfold slice at cut
      split at cut
      · rename_i both
        exact both.1
      · cases cut
    split at reads
    · cases reads
    · rename_i messenger
      simp only [bind_eq_ok] at reads
      obtain ⟨key, target, reads⟩ := reads
      split at reads
      · cases reads
      · rename_i bridge
        rw [not_not.mp messenger] at undone
        rw [not_not.mp bridge] at target
        have from_ : FromMessenger contracts log := ⟨word, Outcome.unwrap_eq_ok.mp topic, undone⟩
        have to_ : ToBridge log := Outcome.unwrap_eq_ok.mp target
        rw [parseFromLog_of_message offsets from_ to_, parseMessage_eq_iff] at parses
        exact ⟨offsets, from_, to_, parses.1, parses.2.1, parses.2.2.1, parses.2.2.2⟩
  · intro isDeposit
    rw [parseFromLog_of_message isDeposit.offsets isDeposit.messenger isDeposit.bridge, parseMessage_eq_iff]
    exact ⟨isDeposit.relayed, isDeposit.call, isDeposit.bridgeSender, isDeposit.place⟩

/-! ## The logs of a block -/

variable {prim : Primitives}

def AnnouncesDeposit (prim : Primitives) (contracts : DepositContracts) (log : Log) : Prop :=
  log.topics.head? = some (prim.keccak256 soonDepositEventAbi) ∧ log.address = contracts.optimismPortalAddress

def LogAnswer (prim : Primitives) (contracts : DepositContracts) (l1BlockNum : UInt64) (l1BlockHash : B256)
    (entry : Log × Nat) (answer : Option UserDeposited) : Prop :=
  ∀ deposit, answer = some deposit ↔
    AnnouncesDeposit prim contracts entry.1 ∧ IsDeposit contracts l1BlockNum l1BlockHash (UInt64.ofNat entry.2) entry.1 deposit

theorem depositOfLog_cases (index : Nat) (log : Log) :
    (∃ answer, depositOfLog prim contracts l1BlockNum l1BlockHash (UInt64.ofNat index) log = some answer ∧
      LogAnswer prim contracts l1BlockNum l1BlockHash (log, index) answer ∧
      (AnnouncesDeposit prim contracts log → LogReadable prim.toRlp contracts log)) ∨
    depositOfLog prim contracts l1BlockNum l1BlockHash (UInt64.ofNat index) log = none ∧ AnnouncesDeposit prim contracts log ∧
      ¬ LogReadable prim.toRlp contracts log := by
  by_cases announces : AnnouncesDeposit prim contracts log
  · have returns := @parseFromLog_returns_iff prim.toRlp contracts l1BlockNum l1BlockHash (UInt64.ofNat index) log
    have parses := @parseFromLog_eq_iff prim.toRlp contracts l1BlockNum l1BlockHash (UInt64.ofNat index) log
    rw [depositOfLog, if_neg (not_not.mpr announces.1), if_neg (not_not.mpr announces.2)]
    generalize UserDeposited.parseFromLog prim.toRlp l1BlockNum l1BlockHash (UInt64.ofNat index) log
      contracts.l1CrossDomainMessenger contracts.l1StandardBridge = parsed at returns parses
    cases parsed with
    | ok deposit =>
        refine .inl ⟨some deposit, rfl, ?_, fun _ => returns.mp trivial⟩
        intro other
        rw [← parses, Option.some.injEq, Except.ok.injEq]
        exact (and_iff_right announces).symm
    | error stop =>
        cases stop with
        | error e =>
            refine .inl ⟨none, rfl, ?_, fun _ => returns.mp trivial⟩
            intro deposit
            rw [← parses]
            simp
        | panic => exact .inr ⟨rfl, announces, fun readable => returns.mpr readable⟩
        | outOfFuel => exact .inr ⟨rfl, announces, fun readable => returns.mpr readable⟩
  · refine .inl ⟨none, ?_, ?_, fun here => absurd here announces⟩
    · unfold depositOfLog
      by_cases signature : log.topics.head? = some (prim.keccak256 soonDepositEventAbi)
      · rw [if_neg (not_not.mpr signature), if_pos fun address => announces ⟨signature, address⟩]
      · rw [if_pos signature]
    · intro deposit
      simp [announces]

/-- Every deposit among the logs is derived, in their order and with the index of its log, and nothing else is. -/
def DerivesExactly (prim : Primitives) (contracts : DepositContracts) (l1BlockNum : UInt64) (l1BlockHash : B256) (start : Nat)
    (logs : List Log) (result : Option (List UserDeposited)) : Prop :=
  ∃ found : List (Option UserDeposited), result = some found.reduceOption ∧
    List.Forall₂ (LogAnswer prim contracts l1BlockNum l1BlockHash) (logs.zipIdx start) found

theorem depositsFrom_exact_iff (start : Nat) (logs : List Log) :
    DerivesExactly prim contracts l1BlockNum l1BlockHash start logs
        (depositsFrom prim contracts l1BlockNum l1BlockHash (UInt64.ofNat start) logs) ↔
      ∀ log ∈ logs, AnnouncesDeposit prim contracts log → LogReadable prim.toRlp contracts log := by
  induction logs generalizing start with
  | nil => exact ⟨fun _ log member => (by cases member), fun _ => ⟨[], rfl, .nil⟩⟩
  | cons log logs ih =>
      have next : UInt64.ofNat start + 1 = UInt64.ofNat (start + 1) := by simp
      have later := ih (start + 1)
      rw [List.forall_mem_cons, ← later, depositsFrom, next]
      rcases @depositOfLog_cases contracts l1BlockNum l1BlockHash prim start log with
        ⟨answer, ok, exact_, readable⟩ | ⟨stops, announces, unreadable⟩
      · rw [ok]
        constructor
        · rintro ⟨found, derives, each⟩
          refine ⟨readable, ?_⟩
          rw [List.zipIdx_cons] at each
          cases each with
          | cons here there =>
              rename_i first others
              have same : first = answer := by
                apply Option.ext
                intro deposit
                exact (here deposit).trans (exact_ deposit).symm
              subst same
              simp only [Option.bind_eq_bind, Option.bind_some, Option.bind_eq_some_iff] at derives
              obtain ⟨rest, restOk, made⟩ := derives
              refine ⟨others, ?_, there⟩
              rw [restOk]
              cases first with
              | none => exact made
              | some deposit => exact congrArg (Option.map List.tail) made
        · rintro ⟨-, found, derives, each⟩
          refine ⟨answer :: found, ?_, .cons exact_ each⟩
          rw [derives]
          cases answer with
          | none => rfl
          | some deposit => rfl
      · rw [stops]
        constructor
        · rintro ⟨found, derives, -⟩
          cases derives
        · rintro ⟨readable, -⟩
          exact absurd (readable announces) unreadable

/-- The deposits of a block are derived without a panic, and exactly, if and only if every log of the deposit contract
with the deposit event is long enough for what is read of it. -/
theorem deriveDeposits_exact_iff (prim : Primitives) (contracts : DepositContracts) (l1BlockNum : UInt64)
    (l1BlockHash : B256) (receipts : List Receipt) :
    DerivesExactly prim contracts l1BlockNum l1BlockHash 0 (countedLogs receipts)
        (deriveDeposits prim contracts l1BlockNum l1BlockHash receipts) ↔
      ∀ log ∈ countedLogs receipts, AnnouncesDeposit prim contracts log → LogReadable prim.toRlp contracts log :=
  depositsFrom_exact_iff 0 (countedLogs receipts)

theorem length_contractBytes (b : UInt8) : (List.replicate 20 b).length = 20 := List.length_replicate

def contractAddress (b : UInt8) : Address := ⟨List.replicate 20 b, length_contractBytes b⟩

def portalContracts : DepositContracts := ⟨contractAddress 1, contractAddress 2, contractAddress 3⟩

def depositEvent : B256 := .ofNat 0xe6a61c8a27c2ace3a2c5c1be0459b0169e6f228db83930f82d7c877043c946b7

def eventHashes : Primitives := .tabulated [(soonDepositEventAbi, depositEvent)]

def bareLog : Log := ⟨portalContracts.optimismPortalAddress, [depositEvent], []⟩

def cutLog : Log where
  address := portalContracts.optimismPortalAddress
  topics := [depositEvent, .ofNat 0x1313020202020202020202020202020202021313, soonBridgePubkey]
  data := List.replicate 64 0 ++ List.replicate 73 0 ++ crossDomainMessengerRelaySelector ++ List.replicate 226 0

/-- One malformed log of the deposit contract stops the derivation of the whole block. The data of the second are
shorter than 305 bytes, but their RLP is not. -/
theorem malformed_log_panics :
    deriveDeposits eventHashes portalContracts 11 (.ofNat 0x12) [⟨.eip658 true, [bareLog]⟩] = none ∧
    deriveDeposits eventHashes portalContracts 11 (.ofNat 0x12) [⟨.eip658 true, [cutLog]⟩] = none ∧
    ¬ DerivesExactly eventHashes portalContracts 11 (.ofNat 0x12) 0 [bareLog]
      (deriveDeposits eventHashes portalContracts 11 (.ofNat 0x12) [⟨.eip658 true, [bareLog]⟩]) := by
  have stops : deriveDeposits eventHashes portalContracts 11 (.ofNat 0x12) [⟨.eip658 true, [bareLog]⟩] = none := by
    decide +kernel
  refine ⟨stops, by decide +kernel, ?_⟩
  rintro ⟨found, derives, -⟩
  rw [stops] at derives
  cases derives

end KonaSoon
