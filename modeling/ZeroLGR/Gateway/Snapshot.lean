/-
  ZeroLGR.Gateway.Snapshot — when a balance snapshot arrives.

  `serialize_balance_snapshot` writes the correlation id behind the type, as
  every response has it; the parser of `get_balance_snapshot` goes on at offset
  1, where the id stands.  Every later field is read 16 bytes too early.  The
  result is right exactly if the bytes that stand there happen to be those of
  the right fields.

    • `readAccounts_at`, `readAccounts_ok` — the loop over the accounts reads
      what stands at its offset, and nothing else,
    • `Coincides` — what the 16 bytes have to be,
    • `balance_snapshot_iff` — the snapshot arrives exactly then.
-/
import ZeroLGR.Gateway.Codec

namespace ZeroLGR.Gateway

open Span Ledger Server

/-! ## §1. Words of eight bytes. -/

theorem signed_int64Bytes {n : Int} (h : FitsInt64 n) : signed (int64Bytes n) = n := by
  unfold int64Bytes
  rw [signed_le64]
  exact Int64.toInt_ofInt_of_le h.1 h.2

/-- Eight bytes are those of the number they are read as. -/
theorem int64Bytes_signed {bs : Bytes} (h : bs.length = 8) : int64Bytes (signed bs) = bs := by
  unfold int64Bytes signed
  rw [Int64.ofInt_toInt, UInt64.toUInt64_toInt64, le64_ofLE h]

theorem signed_eq_iff {bs : Bytes} {n : Int} (hbs : bs.length = 8) (hn : FitsInt64 n) :
    signed bs = n ↔ bs = int64Bytes n := by
  constructor
  · intro h
    rw [← h, int64Bytes_signed hbs]
  · intro h
    rw [h, signed_int64Bytes hn]

/-! ## §2. The accounts. -/

/-- The account an entry stands for. -/
def AccountEntry.info (e : AccountEntry) : AccountInfo :=
  ⟨encodeUtf8 e.accountId, encodeUtf8 e.name, accountTypeOf e.type, e.balance⟩

/-- What can be sent of an account. -/
structure Sendable (acc : AccountInfo) : Prop where
  id : Text acc.id
  name : Text acc.name
  balance : FitsInt64 acc.balance

/-- Every account that can be sent is that of an entry. -/
theorem Sendable.entry {acc : AccountInfo} (h : Sendable acc) :
    ∃ e : AccountEntry, e.info = acc := by
  obtain ⟨id, hid⟩ := h.id.valid
  obtain ⟨name, hname⟩ := h.name.valid
  refine ⟨⟨id, name, acc.balance, typeByte acc.type⟩, ?_⟩
  unfold AccountEntry.info
  rw [hid, hname, accountTypeOf_typeByte]

theorem entries_of_sendable : ∀ {accounts : List AccountInfo}, (∀ acc ∈ accounts, Sendable acc) →
    ∃ es : List AccountEntry, es.map AccountEntry.info = accounts
  | [], _ => ⟨[], rfl⟩
  | acc :: accounts, h => by
      obtain ⟨e, rfl⟩ := (h acc List.mem_cons_self).entry
      obtain ⟨es, rfl⟩ := entries_of_sendable (fun a ha => h a (List.mem_cons_of_mem _ ha))
      exact ⟨e :: es, rfl⟩

/-- **Accounts that stand at the offset are read.** -/
theorem readAccounts_at {data : Bytes} : ∀ {es : List AccountEntry} {off : Nat},
    (∀ e ∈ es, Sendable e.info) → At data off ((es.map AccountEntry.info).flatMap accountBytes) →
    readAccounts data es.length off = .ok es
  | [], _, _, _ => rfl
  | e :: es, off, hsend, h => by
      have hfirst := hsend e List.mem_cons_self
      rw [List.map_cons, List.flatMap_cons] at h
      obtain ⟨hacc, hrest⟩ := at_append.mp h
      simp only [accountBytes, AccountEntry.info, at_append, List.length_append,
        List.length_singleton, length_int64Bytes, typeByte_accountTypeOf, ← Nat.add_assoc] at hacc hrest
      obtain ⟨⟨⟨hid, hname⟩, hbalance⟩, htype⟩ := hacc
      have hword := unpackFrom_at hbalance
      rw [length_int64Bytes] at hword
      have ih := readAccounts_at (fun e' he' => hsend e' (List.mem_cons_of_mem e he')) hrest
      have hid' : readString data off = _ := readString_at hfirst.id.short hid
      have hname' := readString_at hfirst.name.short hname
      have hsigned : signed (int64Bytes e.balance) = e.balance := signed_int64Bytes hfirst.balance
      rw [List.length_cons]
      unfold readAccounts
      simp only [hid', hname', hword, index_at htype, ih, ok_bind, hsigned]
      rfl

/-- What is read as accounts stands there. -/
theorem readAccounts_ok {data : Bytes} : ∀ {count off : Nat} {es : List AccountEntry},
    readAccounts data count off = .ok es → off ≤ data.length →
    es.length = count ∧ At data off ((es.map AccountEntry.info).flatMap accountBytes)
  | 0, off, es, h, hoff => by
      cases h
      exact ⟨rfl, by simpa using hoff, rfl⟩
  | count + 1, off, es, h, hoff => by
      unfold readAccounts at h
      obtain ⟨accId, hid, h⟩ := bind_eq_ok.mp h
      obtain ⟨name, hname, h⟩ := bind_eq_ok.mp h
      obtain ⟨balance, hbalance, h⟩ := bind_eq_ok.mp h
      obtain ⟨accType, htype, h⟩ := bind_eq_ok.mp h
      obtain ⟨rest, hrest, h⟩ := bind_eq_ok.mp h
      cases h
      obtain ⟨hbalanceAt, height⟩ := at_of_unpackFrom hbalance
      have htypeAt := at_of_index htype
      have hend := htypeAt.le
      have hbalanceEnd := hbalanceAt.le
      rw [List.length_singleton] at hend
      -- behind each part there is another one
      obtain ⟨hnameAt, hnameEnd⟩ := readString_ok hname (by omega)
      have hnameLe := hnameAt.le
      obtain ⟨hidAt, hidEnd⟩ := readString_ok hid (by omega)
      obtain ⟨hlength, hrestAt⟩ := readAccounts_ok hrest (by omega)
      refine ⟨by rw [List.length_cons, hlength], ?_⟩
      rw [List.map_cons, List.flatMap_cons]
      simp only [accountBytes, AccountEntry.info, at_append, List.length_append,
        List.length_singleton, length_int64Bytes, typeByte_accountTypeOf, ← Nat.add_assoc]
      rw [← hidEnd, ← hnameEnd, int64Bytes_signed height]
      exact ⟨⟨⟨⟨hidAt, hnameAt⟩, hbalanceAt⟩, htypeAt⟩, hrestAt⟩

/-! ## §3. The snapshot. -/

/-- The snapshot a result stands for. -/
def SnapshotResult.data (result : SnapshotResult) : BalanceSnapshotData :=
  ⟨result.accounts.map AccountEntry.info, result.totalAssets, result.totalLiabilities,
    result.totalEquity, result.invariantOk⟩

/-- What can be sent as a snapshot. -/
structure SnapshotSendable (snap : BalanceSnapshotData) : Prop where
  count : snap.accounts.length < 2 ^ 32
  accounts : ∀ acc ∈ snap.accounts, Sendable acc
  assets : FitsInt64 snap.totalAssets
  liabilities : FitsInt64 snap.totalLiabilities
  equity : FitsInt64 snap.totalEquity

/-- **The snapshot arrives**: the parser returns it. -/
def Arrives (corrId : Uuid) (snap : BalanceSnapshotData) : Prop :=
  ∃ result, parseBalanceSnapshot (serializeBalanceSnapshot corrId snap) = .ok result ∧
    result.data = snap

/-- What the parser takes for the accounts: it starts in the middle of the total
of the liabilities. -/
def earlyAccounts (snap : BalanceSnapshotData) : Bytes :=
  slice (int64Bytes snap.totalLiabilities) 4 8 ++ (int64Bytes snap.totalEquity ++
    (Wal.le32 (UInt32.ofNat snap.accounts.length) ++ snap.accounts.flatMap accountBytes))

/-- **What the 16 bytes have to be.**  The correlation id repeats the flag, the
assets and the low bytes of the liabilities; the flag is their high byte; the
equity is the assets; the liabilities begin with the number of accounts; and the
accounts repeat what stands 16 bytes before them. -/
structure Coincides (corrId : Uuid) (snap : BalanceSnapshotData) : Prop where
  flag : snap.invariantOk = decide (slice corrId.bytes 0 1 ≠ [0])
  assets : slice corrId.bytes 1 9 = int64Bytes snap.totalAssets
  liabilities : slice corrId.bytes 9 16 ++ [flagByte snap.invariantOk] =
    int64Bytes snap.totalLiabilities
  equity : snap.totalEquity = snap.totalAssets
  count : slice (int64Bytes snap.totalLiabilities) 0 4 =
    Wal.le32 (UInt32.ofNat snap.accounts.length)
  accounts : snap.accounts.flatMap accountBytes <+: earlyAccounts snap

section Parser

variable {corrId : Uuid} {snap : BalanceSnapshotData}

theorem length_slice {bs : Bytes} {i j : Nat} (hj : j ≤ bs.length) :
    (slice bs i j).length = j - i := by
  rw [slice, List.length_take, List.length_drop]
  omega

theorem slice_all (bs : Bytes) : slice bs 0 bs.length = bs := by
  rw [slice, List.drop_zero, List.take_of_length_le (by omega)]

/-- Three words and `n` bytes: the formats `<qqqI` and `<ddQB`. -/
theorem slice_words {a b c d : Bytes} {n : Nat} (ha : a.length = 8) (hb : b.length = 8)
    (hc : c.length = 8) (hd : d.length = n) :
    slice (a ++ (b ++ (c ++ d))) 0 8 = a ∧ slice (a ++ (b ++ (c ++ d))) 8 16 = b ∧
      slice (a ++ (b ++ (c ++ d))) 16 24 = c ∧
      slice (a ++ (b ++ (c ++ d))) 24 (24 + n) = d := by
  have hwhole := at_self (a ++ (b ++ (c ++ d)))
  rw [at_append, at_append, at_append, ha, hb, hc] at hwhole
  obtain ⟨hat, hbt, hct, hdt⟩ := hwhole
  have ha' := slice_at hat
  have hb' := slice_at hbt
  have hc' := slice_at hct
  have hd' := slice_at hdt
  rw [ha] at ha'
  rw [hb] at hb'
  rw [hc] at hc'
  rw [hd] at hd'
  exact ⟨ha', hb', hc', hd'⟩

/-- The message, cut where the parser cuts it. -/
theorem serializeBalanceSnapshot_eq (corrId : Uuid) (snap : BalanceSnapshotData) :
    serializeBalanceSnapshot corrId snap =
      [MSG_BALANCE_RESPONSE] ++ (slice corrId.bytes 0 1 ++ ((slice corrId.bytes 1 9 ++
        ((slice corrId.bytes 9 16 ++ [flagByte snap.invariantOk]) ++
          (int64Bytes snap.totalAssets ++ slice (int64Bytes snap.totalLiabilities) 0 4))) ++
            earlyAccounts snap)) := by
  have hid : corrId.bytes = slice corrId.bytes 0 1 ++
      (slice corrId.bytes 1 9 ++ slice corrId.bytes 9 16) := by
    rw [slice_append _ (by decide) (by decide), slice_append _ (by decide) (by decide)]
    conv_lhs => rw [← slice_all corrId.bytes, corrId.length_eq]
  have hliabilities : int64Bytes snap.totalLiabilities =
      slice (int64Bytes snap.totalLiabilities) 0 4 ++
        slice (int64Bytes snap.totalLiabilities) 4 8 := by
    rw [slice_append _ (by decide) (by decide)]
    conv_lhs => rw [← slice_all (int64Bytes snap.totalLiabilities), length_int64Bytes]
  have hmsg : serializeBalanceSnapshot corrId snap = [MSG_BALANCE_RESPONSE] ++ (corrId.bytes ++
      ([flagByte snap.invariantOk] ++ (int64Bytes snap.totalAssets ++
        (int64Bytes snap.totalLiabilities ++ (int64Bytes snap.totalEquity ++
          (Wal.le32 (UInt32.ofNat snap.accounts.length) ++
            snap.accounts.flatMap accountBytes)))))) := by
    simp only [serializeBalanceSnapshot, List.append_assoc]
    rfl
  rw [hmsg]
  unfold earlyAccounts
  conv_lhs => rw [hid, hliabilities]
  simp only [List.append_assoc]

/-- **What the parser makes of the message.** -/
theorem parseBalanceSnapshot_serialize (corrId : Uuid) (hassets : FitsInt64 snap.totalAssets) :
    At (serializeBalanceSnapshot corrId snap) 30 (earlyAccounts snap) ∧
    30 + (earlyAccounts snap).length = (serializeBalanceSnapshot corrId snap).length ∧
    parseBalanceSnapshot (serializeBalanceSnapshot corrId snap) =
      (readAccounts (serializeBalanceSnapshot corrId snap)
        (Bytes.ofLE (slice (int64Bytes snap.totalLiabilities) 0 4)) 30 >>= fun accounts =>
      .ok ⟨decide (slice corrId.bytes 0 1 ≠ [0]), signed (slice corrId.bytes 1 9),
        signed (slice corrId.bytes 9 16 ++ [flagByte snap.invariantOk]), snap.totalAssets,
        accounts⟩) := by
  have hone : (slice corrId.bytes 0 1).length = 1 :=
    length_slice (by rw [corrId.length_eq]; decide)
  have height : (slice corrId.bytes 1 9).length = 8 :=
    length_slice (by rw [corrId.length_eq]; decide)
  have hseven : (slice corrId.bytes 9 16).length = 7 :=
    length_slice (by rw [corrId.length_eq])
  have hfour : (slice (int64Bytes snap.totalLiabilities) 0 4).length = 4 :=
    length_slice (by rw [length_int64Bytes]; decide)
  obtain ⟨inv, hinv⟩ := List.length_eq_one_iff.mp hone
  have heq := serializeBalanceSnapshot_eq corrId snap
  have hlength := congrArg List.length heq
  have hwhole := at_of_eq heq
  simp only [List.length_append, hone, height, hseven, hfour, List.length_singleton,
    length_int64Bytes] at hlength
  -- the type, the flag, 28 bytes of numbers, and the rest
  obtain ⟨htype, hwhole⟩ := at_append.mp hwhole
  obtain ⟨hflag, hwhole⟩ := at_append.mp hwhole
  obtain ⟨hwords, hearly⟩ := at_append.mp hwhole
  simp only [List.length_append, hone, height, hseven, hfour, List.length_singleton,
    length_int64Bytes, Nat.reduceAdd] at hflag hwords hearly
  have hpair : (slice corrId.bytes 9 16 ++ [flagByte snap.invariantOk]).length = 8 := by
    rw [List.length_append, hseven, List.length_singleton]
  have hread := unpackFrom_at hwords
  simp only [List.length_append, height, hseven, hfour, List.length_singleton, length_int64Bytes,
    Nat.reduceAdd] at hread
  obtain ⟨hfirst, hsecond, hthird, hcount⟩ :=
    slice_words height hpair (length_int64Bytes snap.totalAssets) hfour
  refine ⟨hearly, by omega, ?_⟩
  rw [hinv] at hflag
  unfold parseBalanceSnapshot
  simp only [index_at htype, index_at hflag, ok_bind, ne_eq, not_true_eq_false, if_false, hread,
    hfirst, hsecond, hthird, hcount, signed_int64Bytes hassets, hinv, List.cons.injEq, and_true]
  rfl

/-- **A snapshot that coincides arrives.** -/
theorem arrives_of_coincides (hsend : SnapshotSendable snap) (h : Coincides corrId snap) :
    Arrives corrId snap := by
  obtain ⟨hearly, hend, hparse⟩ := parseBalanceSnapshot_serialize corrId hsend.assets
  obtain ⟨es, hes⟩ := entries_of_sendable hsend.accounts
  -- the accounts stand where the parser looks for them
  have hat := (at_iff_begins hearly hend).mpr h.accounts
  rw [← hes] at hat
  have hentries : ∀ e ∈ es, Sendable e.info := by
    intro e he
    refine hsend.accounts _ ?_
    rw [← hes]
    exact List.mem_map_of_mem he
  have hread := readAccounts_at hentries hat
  have hcount : Bytes.ofLE (slice (int64Bytes snap.totalLiabilities) 0 4) = es.length := by
    rw [h.count, Wal.ofLE_le32 hsend.count, ← hes, List.length_map]
  rw [hcount, hread, ok_bind] at hparse
  refine ⟨_, hparse, ?_⟩
  have hassets : signed (slice corrId.bytes 1 9) = snap.totalAssets := by
    rw [h.assets, signed_int64Bytes hsend.assets]
  have hliabilities : signed (slice corrId.bytes 9 16 ++ [flagByte snap.invariantOk]) =
      snap.totalLiabilities := by
    rw [h.liabilities, signed_int64Bytes hsend.liabilities]
  have hequity := h.equity
  have hflag := h.flag
  obtain ⟨accounts, assets, liabilities, equity, flag⟩ := snap
  simp only [SnapshotResult.data, BalanceSnapshotData.mk.injEq]
  exact ⟨hes, hassets, hliabilities, hequity.symm, hflag.symm⟩

/-- **A snapshot that arrives coincides.** -/
theorem coincides_of_arrives (hsend : SnapshotSendable snap) (h : Arrives corrId snap) :
    Coincides corrId snap := by
  obtain ⟨hearly, hend, hparse⟩ := parseBalanceSnapshot_serialize corrId hsend.assets
  obtain ⟨result, hresult, hdata⟩ := h
  rw [hparse] at hresult
  obtain ⟨es, hread, hresult⟩ := bind_eq_ok.mp hresult
  cases hresult
  have hle := hearly.le
  obtain ⟨hlength, hat⟩ := readAccounts_ok hread (by omega)
  obtain ⟨accounts, assets, liabilities, equity, flag⟩ := snap
  simp only [SnapshotResult.data, BalanceSnapshotData.mk.injEq] at hdata
  obtain ⟨hes, hassets, hliabilities, hequity, hflag⟩ := hdata
  rw [hes] at hat
  have height : (slice corrId.bytes 1 9).length = 8 :=
    length_slice (by rw [corrId.length_eq]; decide)
  have hpair : (slice corrId.bytes 9 16 ++ [flagByte flag]).length = 8 := by
    rw [List.length_append, length_slice (by rw [corrId.length_eq]), List.length_singleton]
  have hfour : (slice (int64Bytes liabilities) 0 4).length = 4 :=
    length_slice (by rw [length_int64Bytes]; decide)
  refine ⟨hflag.symm, (signed_eq_iff height hsend.assets).mp hassets,
    (signed_eq_iff hpair hsend.liabilities).mp hliabilities, hequity.symm, ?_,
    (at_iff_begins hearly hend).mp hat⟩
  -- as many accounts were read as the four bytes say
  have hcount : accounts.length = Bytes.ofLE (slice (int64Bytes liabilities) 0 4) := by
    rw [← hlength, ← hes, List.length_map]
  show slice (int64Bytes liabilities) 0 4 = Wal.le32 (UInt32.ofNat accounts.length)
  rw [hcount, Wal.le32_ofLE hfour]

end Parser

/-- **WHEN A SNAPSHOT ARRIVES.**  For every correlation id and every snapshot
that can be sent: exactly if the 16 bytes of the correlation id coincide. -/
theorem balance_snapshot_iff (corrId : Uuid) (snap : BalanceSnapshotData)
    (hsend : SnapshotSendable snap) : Arrives corrId snap ↔ Coincides corrId snap :=
  ⟨coincides_of_arrives hsend, arrives_of_coincides hsend⟩

/-- A ledger without accounts. -/
def emptySnapshot (ok : Bool) : BalanceSnapshotData := ⟨[], 0, 0, 0, ok⟩

theorem emptySnapshot_sendable (ok : Bool) : SnapshotSendable (emptySnapshot ok) := by
  have hzero : FitsInt64 0 := by constructor <;> decide
  refine ⟨Nat.two_pow_pos 32, ?_, hzero, hzero, hzero⟩
  intro acc hacc
  cases hacc

/-- Under the identifier of zeros an empty snapshot arrives, when its flag is not
set. -/
theorem emptySnapshot_arrives : Arrives Uuid.zero (emptySnapshot false) := by
  refine (balance_snapshot_iff Uuid.zero (emptySnapshot false) (emptySnapshot_sendable false)).mpr ?_
  refine ⟨rfl, rfl, rfl, rfl, rfl, ?_⟩
  exact List.nil_prefix

/-- **Under others it does not.**  The totals are then those of the correlation
id. -/
theorem emptySnapshot_lost :
    ¬ Arrives drawnId (emptySnapshot true) ∧
      parseBalanceSnapshot (serializeBalanceSnapshot drawnId (emptySnapshot true)) =
        .ok ⟨true, -0x5e1db4f8623bde76, 0x01b81e72930d665c, 0, []⟩ := by
  have hparse : parseBalanceSnapshot (serializeBalanceSnapshot drawnId (emptySnapshot true)) =
      .ok ⟨true, -0x5e1db4f8623bde76, 0x01b81e72930d665c, 0, []⟩ := by
    decide +kernel
  refine ⟨?_, hparse⟩
  intro h
  obtain ⟨result, hresult, hdata⟩ := h
  rw [hparse] at hresult
  cases hresult
  cases congrArg BalanceSnapshotData.totalAssets hdata

end ZeroLGR.Gateway
