import HalAPI.Switchboard.Connections

/-!
# Looking up connections

`get_connection` reads the record of a connection at its offset in the table.  One overload takes
an id and returns the connection, the other refreshes a connection it is given and returns a
status.

Both find the record that a create operation has just made, and both yield an invalid connection
if the read fails.  The status says `-1` in either case, so the refreshing overload reports a
failure even if it found the record (`lookupsAgree_iff`).
-/

namespace HalAPI.Switchboard

open Foundation

/-! ## Data -/

/-- What the headers say of `SwitchboardConnection` and of the file of records: the size of a
record, which is that of a status record, how the record at an index reads as a connection, the id
of a connection and the invalid connection.  A read at an offset where `fault` is negative fails
with that value. -/
structure Layout {τ : Type} (driver : Driver τ) (κ : Type) where
  size : ℕ
  fault : ℕ → ℤ
  ofRecord : ℕ → Status τ → κ
  id : κ → BitVec 16
  invalid : κ
  size_pos : 0 < size
  size_eq : driver.statusSize = size
  id_ofRecord : ∀ i status, id (ofRecord i status) = BitVec.ofNat 16 i

section Code

variable {τ κ : Type} {driver : Driver τ} (layout : Layout driver κ)

/-- `SwitchboardConnection::invalid_id()` -/
def Layout.invalidId : BitVec 16 := layout.id layout.invalid

/-- What a read of a connection at an offset returns and delivers.  All offsets are multiples of the
size of a record. -/
def Layout.located (b : Board τ) (offset : ℕ) : ℤ × Option κ :=
  if layout.fault offset < 0 then (layout.fault offset, none)
  else
    match b.records[offset / layout.size]? with
    | some record => (driver.statusSize, some (layout.ofRecord (offset / layout.size) record))
    | none => (driver.atEnd, none)

/-- The table after a read at an offset, which moves the file position. -/
def Layout.afterRead (b : Board τ) (offset : ℕ) : Board τ :=
  { b with
    position := offset / layout.size + if (layout.located b offset).2.isSome then 1 else 0 }

/-! ## The code -/

/-- `read(Location(offset), &connection.m_connection, Size(sizeof(switchboard_connection_t)))`: the
return value and the connection afterwards -/
def readConnection (offset : ℕ) (connection : κ) : Program (Board τ) (ℤ × κ) :=
  Program.step fun b =>
    (((layout.located b offset).1, (layout.located b offset).2.getD connection),
      layout.afterRead b offset)

/-- `Switchboard::get_connection(u16 id)` -/
def getConnection (id : BitVec 16) : Program (Board τ) κ := do
  let (ret, connection) ← readConnection layout (id.toNat * layout.size) layout.invalid
  if ret < 0 then pure layout.invalid else pure connection

/-- `Switchboard::get_connection(SwitchboardConnection &connection)`: the return value and the
connection afterwards -/
def refreshConnection (connection : κ) : Program (Board τ) (ℤ × κ) :=
  if layout.id connection ≠ layout.invalidId then do
    let (ret, refreshed) ←
      readConnection layout ((layout.id connection).toNat * layout.size) connection
    if ret < 0 then pure (-1, layout.invalid) else pure (-1, refreshed)
  else pure (-1, connection)

end Code

/-! ## What the lookups yield -/

section Lookups

variable {τ κ : Type} {driver : Driver τ} (layout : Layout driver κ) (b : Board τ)

/-- The read for an id fails: it returns a negative value. -/
def Layout.Fails (id : BitVec 16) : Prop := (layout.located b (id.toNat * layout.size)).1 < 0

/-- The connection after a read for an id: invalid if the read failed, and else what it
delivered. -/
def Layout.found (id : BitVec 16) (connection : κ) : κ :=
  if (layout.located b (id.toNat * layout.size)).1 < 0 then layout.invalid
  else (layout.located b (id.toNat * layout.size)).2.getD connection

/-- What a read of a connection yields. -/
lemma yields_readConnection (offset : ℕ) (connection : κ) :
    (readConnection layout offset connection).Yields b
      ((layout.located b offset).1, (layout.located b offset).2.getD connection)
      (layout.afterRead b offset) :=
  (Program.yields_step _ _ _ _).mpr ⟨rfl, rfl⟩

/-- A lookup by id yields what the read found. -/
lemma yields_getConnection (id : BitVec 16) : (getConnection layout id).Yields b
    (layout.found b id layout.invalid) (layout.afterRead b (id.toNat * layout.size)) := by
  unfold getConnection
  refine (yields_readConnection layout b _ _).bind ?_
  by_cases hfails : (layout.located b (id.toNat * layout.size)).1 < 0
  · simp [Layout.found, hfails]
  · simp [Layout.found, hfails]

/-- A refresh yields what the read found, and the status `-1`. -/
lemma yields_refreshConnection {connection : κ} (h : layout.id connection ≠ layout.invalidId) :
    (refreshConnection layout connection).Yields b
      (-1, layout.found b (layout.id connection) connection)
      (layout.afterRead b ((layout.id connection).toNat * layout.size)) := by
  unfold refreshConnection
  rw [if_pos h]
  refine (yields_readConnection layout b _ _).bind ?_
  by_cases hfails : (layout.located b ((layout.id connection).toNat * layout.size)).1 < 0
  · simp [Layout.found, hfails]
  · simp [Layout.found, hfails]

/-- A refresh of an invalid connection reads nothing. -/
lemma yields_refreshConnection_of_invalid {connection : κ}
    (h : layout.id connection = layout.invalidId) :
    (refreshConnection layout connection).Yields b (-1, connection) b := by
  unfold refreshConnection
  rw [if_neg (not_not.mpr h)]
  exact Program.Yields.pure _ _

variable {layout b}

/-- If the read fails, what it found is the invalid connection. -/
lemma found_of_fails {id : BitVec 16} (h : layout.Fails b id) (connection : κ) :
    layout.found b id connection = layout.invalid := if_pos h

/-- If the read is made, it finds the record with the index of the id. -/
lemma found_of_getElem? {id : BitVec 16} {status : Status τ}
    (hrecord : b.records[id.toNat]? = some status)
    (hmade : 0 ≤ layout.fault (id.toNat * layout.size)) (connection : κ) :
    layout.found b id connection = layout.ofRecord id.toNat status := by
  have hlocated : layout.located b (id.toNat * layout.size) =
      (driver.statusSize, some (layout.ofRecord id.toNat status)) := by
    rw [Layout.located, if_neg (not_lt.mpr hmade), Nat.mul_div_cancel _ layout.size_pos, hrecord]
  rw [Layout.found, hlocated, layout.size_eq, if_neg (not_lt.mpr (Int.natCast_nonneg _))]
  rfl

end Lookups

/-! ## Lookups after a create operation -/

section Agree

variable {τ κ : Type} {driver : Driver τ} {layout : Layout driver κ} {b : Board τ}

/-- The terminals of a create operation. -/
def Command.terminals : Command τ → Option (τ × τ)
  | createPersistent _ input output _ _ => some (input, output)
  | createFixedSize _ input output _ => some (input, output)
  | destroy _ _ => none

/-- Both overloads yield the connection for its id, the refreshing one from any connection with
that id and with a non-negative status. -/
def BothFind (layout : Layout driver κ) (b : Board τ) (id : BitVec 16) (found : κ) : Prop :=
  (∃ b', (getConnection layout id).Yields b found b') ∧
    ∀ connection, layout.id connection = id → ∃ ret b', 0 ≤ ret ∧
      (refreshConnection layout connection).Yields b (ret, found) b'

/-- Both overloads yield an invalid connection for the id, the refreshing one with a negative
status. -/
def BothReport (layout : Layout driver κ) (b : Board τ) (id : BitVec 16) : Prop :=
  (∃ b', (getConnection layout id).Yields b layout.invalid b') ∧
    ∀ connection, layout.id connection = id → ∃ ret invalid b', ret < 0 ∧
      layout.id invalid = layout.invalidId ∧
      (refreshConnection layout connection).Yields b (ret, invalid) b'

/-- If a create operation with the terminals returned the id `r`, both overloads find the record
with that index, which is busy with the terminals; and both report every id whose read
fails. -/
def LookupsAgree (layout : Layout driver κ) (input output : τ) (r : ℤ) (b : Board τ) : Prop :=
  (0 ≤ r → ∃ status, b.records[r.toNat]? = some status ∧ status.busy = true ∧
    status.input = input ∧ status.output = output ∧
    BothFind layout b (BitVec.ofInt 16 r) (layout.ofRecord r.toNat status)) ∧
  ∀ id, layout.Fails b id → BothReport layout b id

/-- Both overloads report every id whose read fails. -/
lemma bothReport_of_fails {id : BitVec 16} (h : layout.Fails b id) : BothReport layout b id := by
  have hget := yields_getConnection layout b id
  rw [found_of_fails h] at hget
  refine ⟨⟨_, hget⟩, ?_⟩
  · rintro connection rfl
    by_cases hvalid : layout.id connection = layout.invalidId
    · exact ⟨-1, connection, b, by decide, hvalid,
        yields_refreshConnection_of_invalid layout b hvalid⟩
    · have hy := yields_refreshConnection layout b hvalid
      rw [found_of_fails h] at hy
      exact ⟨-1, layout.invalid, _, by decide, rfl, hy⟩

/-- The status of a refresh is never non-negative. -/
lemma refreshConnection_status {connection c : κ} {ret : ℤ} {b' : Board τ}
    (hy : (refreshConnection layout connection).Yields b (ret, c) b') : ret = -1 := by
  by_cases hvalid : layout.id connection = layout.invalidId
  · exact congrArg Prod.fst (hy.unique (yields_refreshConnection_of_invalid layout b hvalid)).1
  · exact congrArg Prod.fst (hy.unique (yields_refreshConnection layout b hvalid)).1

/-- No id is found by both overloads with a non-negative status. -/
lemma not_bothFind (i : ℕ) (status : Status τ) (found : κ) :
    ¬ BothFind layout b (BitVec.ofNat 16 i) found := by
  rintro ⟨-, hrefresh⟩
  obtain ⟨ret, b', hret, hy⟩ := hrefresh _ (layout.id_ofRecord i status)
  rw [refreshConnection_status hy] at hret
  exact absurd hret (by decide)

variable (driver b) in
/-- A command with terminals does what a create operation may do. -/
lemma Command.creates (hlength : b.records.length ≤ 65535) {command : Command τ}
    {input output : τ} (hterminals : command.terminals = some (input, output)) :
    ∃ r b', (command.program driver).Yields b r b' ∧ Creates driver input output b r b' ∧
      b'.records.length = b.records.length := by
  obtain ⟨r, b', hy, hmeets, hkept⟩ := command.meets driver hlength
  refine ⟨r, b', hy, ?_, hkept⟩
  cases command with
  | createPersistent uninitialized i o nbyte oFlags =>
    obtain ⟨rfl, rfl⟩ : i = input ∧ o = output := by simpa [Command.terminals] using hterminals
    exact hmeets
  | createFixedSize uninitialized i o nbyte =>
    obtain ⟨rfl, rfl⟩ : i = input ∧ o = output := by simpa [Command.terminals] using hterminals
    exact hmeets
  | destroy uninitialized id => exact absurd hterminals (by simp [Command.terminals])

/-- The lookups do not agree with a create operation that succeeded. -/
lemma not_lookupsAgree {input output : τ} {r : ℤ} {b' : Board τ}
    (hcreates : Creates driver input output b r b') (hr : 0 ≤ r) :
    ¬ LookupsAgree layout input output r b' := by
  intro h
  obtain ⟨i, rfl, -⟩ := hcreates.created hr
  obtain ⟨status, -, -, -, -, hfind⟩ := h.1 hr
  rw [BitVec.ofInt_natCast] at hfind
  exact not_bothFind i status _ hfind

/-- A record whose read is made is found by both overloads, the refreshing one with the status
`-1`. -/
lemma yields_lookups_of_record (hlength : b.records.length ≤ layout.invalidId.toNat) {i : ℕ}
    {status : Status τ} (hstatus : b.records[i]? = some status)
    (hmade : 0 ≤ layout.fault (i * layout.size)) :
    (∃ b', (getConnection layout (BitVec.ofNat 16 i)).Yields b (layout.ofRecord i status) b') ∧
      ∀ connection, layout.id connection = BitVec.ofNat 16 i → ∃ b',
        (refreshConnection layout connection).Yields b (-1, layout.ofRecord i status) b' := by
  have hmax : layout.invalidId.toNat < 2 ^ 16 := layout.invalidId.isLt
  have hlt : i < b.records.length := (List.getElem?_eq_some_iff.mp hstatus).1
  have hid : (BitVec.ofNat 16 i).toNat = i := by
    rw [BitVec.toNat_ofNat, Nat.mod_eq_of_lt (by omega)]
  have hrecord : b.records[(BitVec.ofNat 16 i).toNat]? = some status := by
    rw [hid]
    exact hstatus
  have hread : 0 ≤ layout.fault ((BitVec.ofNat 16 i).toNat * layout.size) := by
    rw [hid]
    exact hmade
  have hfound := found_of_getElem? hrecord hread
  rw [hid] at hfound
  have hget := yields_getConnection layout b (BitVec.ofNat 16 i)
  rw [hfound] at hget
  refine ⟨⟨_, hget⟩, fun connection hconnection => ?_⟩
  have hvalid : layout.id connection ≠ layout.invalidId := by
    intro hinvalid
    rw [hconnection] at hinvalid
    rw [← hinvalid, hid] at hlength
    omega
  have hrefresh := yields_refreshConnection layout b hvalid
  rw [hconnection, hfound] at hrefresh
  exact ⟨_, hrefresh⟩

/-- After a create operation the two lookups agree with it exactly if it failed, because no record
was free or its request was refused: the refreshing overload never reports success.  The record of
a create operation that succeeded is found by both overloads, if its read is made, and every id
whose read fails is reported by both. -/
theorem lookupsAgree_iff (layout : Layout driver κ) (b : Board τ)
    (hlength : b.records.length ≤ layout.invalidId.toNat) (command : Command τ) {input output : τ}
    (hterminals : command.terminals = some (input, output)) :
    ∃ r b', (command.program driver).Yields b r b' ∧
      (LookupsAgree layout input output r b' ↔
        (∀ status ∈ b.records, status.busy = true) ∨ driver.verdict b.calls < 0) ∧
      (0 ≤ r → 0 ≤ layout.fault (r.toNat * layout.size) → ∃ status,
        b'.records[r.toNat]? = some status ∧ status.input = input ∧ status.output = output ∧
        (∃ b'', (getConnection layout (BitVec.ofInt 16 r)).Yields b'
          (layout.ofRecord r.toNat status) b'') ∧
        ∀ connection, layout.id connection = BitVec.ofInt 16 r → ∃ b'',
          (refreshConnection layout connection).Yields b'
            (-1, layout.ofRecord r.toNat status) b'') ∧
      ∀ id, layout.Fails b' id → BothReport layout b' id := by
  have hmax : layout.invalidId.toNat < 2 ^ 16 := layout.invalidId.isLt
  obtain ⟨r, b', hy, hcreates, hkept⟩ := Command.creates driver b (by omega) hterminals
  refine ⟨r, b', hy, ?_, fun hr hmade => ?_, fun id hfails => bothReport_of_fails hfails⟩
  · rw [← hcreates.failed_iff]
    constructor
    · exact fun h => not_le.mp fun hr => not_lookupsAgree hcreates hr h
    · exact fun hr => ⟨fun h => absurd h (not_le.mpr hr), fun id => bothReport_of_fails⟩
  · obtain ⟨i, rfl, -, ⟨status, hstatus, -, hinput, houtput⟩, -⟩ := hcreates.created hr
    rw [Int.toNat_natCast] at hmade ⊢
    rw [BitVec.ofInt_natCast]
    exact ⟨status, hstatus, hinput, houtput,
      yields_lookups_of_record (hkept ▸ hlength) hstatus hmade⟩

end Agree

/-- Connections with an id and a status record, on a device all of whose reads are made. -/
def plainLayout : Layout refusesSecond (BitVec 16 × Status Bool) where
  size := 36
  fault _ := 0
  ofRecord i status := (BitVec.ofNat 16 i, status)
  id := Prod.fst
  invalid := (0xFFFF#16, ⟨0#32, false, false⟩)
  size_pos := by decide
  size_eq := rfl
  id_ofRecord _ _ := rfl

/-- The second record of a table is free, and a connection is created in it. -/
theorem lookupsAgree_iff_second_free :
    ∃ r b', (Command.program refusesSecond (.createFixedSize ⟨7#32, true, true⟩ true false
        16#32)).Yields ⟨[⟨5#32, false, true⟩, ⟨0#32, false, false⟩], 1, 0⟩ r b' ∧
      (LookupsAgree plainLayout true false r b' ↔
        (∀ status ∈ [⟨5#32, false, true⟩, (⟨0#32, false, false⟩ : Status Bool)],
          status.busy = true) ∨ refusesSecond.verdict 0 < 0) ∧
      (0 ≤ r → 0 ≤ plainLayout.fault (r.toNat * plainLayout.size) → ∃ status,
        b'.records[r.toNat]? = some status ∧ status.input = true ∧ status.output = false ∧
        (∃ b'', (getConnection plainLayout (BitVec.ofInt 16 r)).Yields b'
          (plainLayout.ofRecord r.toNat status) b'') ∧
        ∀ connection, plainLayout.id connection = BitVec.ofInt 16 r → ∃ b'',
          (refreshConnection plainLayout connection).Yields b'
            (-1, plainLayout.ofRecord r.toNat status) b'') ∧
      ∀ id, plainLayout.Fails b' id → BothReport plainLayout b' id :=
  lookupsAgree_iff plainLayout ⟨[⟨5#32, false, true⟩, ⟨0#32, false, false⟩], 1, 0⟩ (by decide)
    (.createFixedSize ⟨7#32, true, true⟩ true false 16#32) rfl

/-- The connection is created, but the refresh of a connection with its id reports a failure. -/
theorem lookups_disagree_second_free :
    ∃ r b', (createFixedSizeConnection refusesSecond ⟨7#32, true, true⟩ true false 16#32).Yields
        ⟨[⟨5#32, false, true⟩, ⟨0#32, false, false⟩], 1, 0⟩ r b' ∧
      0 ≤ r ∧ ¬ LookupsAgree plainLayout true false r b' := by
  have hterminals : (Command.createFixedSize ⟨7#32, true, true⟩ true false 16#32).terminals =
      some (true, false) := rfl
  obtain ⟨r, b', hy, hcreates, -⟩ := Command.creates refusesSecond
    ⟨[⟨5#32, false, true⟩, ⟨0#32, false, false⟩], 1, 0⟩ (by decide) hterminals
  have hr : 0 ≤ r := by
    rw [← not_lt, hcreates.failed_iff]
    decide
  exact ⟨r, b', hy, hr, not_lookupsAgree hcreates hr⟩

end HalAPI.Switchboard
