import HalAPI.Switchboard.Switchboard

/-!
# The table of connections over whole runs

The scan of `get_available_connection` stops at the first free record, so its index is the
least free one, and `get_active_connection_count` counts the busy records.  From the results of
the two scans, a create operation connects the least free record and no other.

`runCommands_keeps_table` says this of every state that a sequence of create and destroy calls
reaches from any table of at most `65535` records, whichever of its requests fail.
-/

namespace HalAPI.Switchboard

open Foundation

section Scans

variable {τ : Type} {driver : Driver τ} {b : Board τ}

variable (driver) in
/-- A read before the end of the table delivers the record at the file position. -/
lemma yields_read_of_getElem? {record : Status τ} (h : b.records[b.position]? = some record)
    (status : Status τ) : (read driver status).Yields b (driver.statusSize, record)
      { b with position := b.position + 1 } := by
  unfold read
  simp [h]

variable (driver) in
/-- A read at the end of the table is short. -/
lemma yields_read_of_end (h : b.records[b.position]? = none) (status : Status τ) :
    (read driver status).Yields b (driver.atEnd, status) b := by
  unfold read
  simp [h]

/-- A seek to the start succeeds. -/
lemma yields_seekStart (b : Board τ) : seekStart.Yields b 0 { b with position := 0 } := by
  unfold seekStart
  simp

/-- The first record of the rest of the table is the one at the file position. -/
lemma getElem?_of_drop_cons {record : Status τ} {rest : List (Status τ)}
    (h : b.records.drop b.position = record :: rest) : b.records[b.position]? = some record := by
  have hfirst : (b.records.drop b.position)[0]? = some record := by rw [h]; rfl
  simpa using hfirst

/-- There is no record at the file position if the rest of the table is empty. -/
lemma getElem?_of_drop_nil (h : b.records.drop b.position = []) :
    b.records[b.position]? = none :=
  List.getElem?_eq_none (List.drop_eq_nil_iff.mp h)

/-- The rest of the table after its first record. -/
lemma drop_succ_of_drop_cons {record : Status τ} {rest : List (Status τ)}
    (h : b.records.drop b.position = record :: rest) :
    b.records.drop (b.position + 1) = rest := by
  rw [← List.drop_drop, h]
  rfl

/-- What the loop of `get_available_connection` returns for the rest of a table. -/
def scanned (driver : Driver τ) (id : ℤ) (rest : List (Status τ)) : ℤ × ℤ :=
  match rest.findIdx? fun status => !status.busy with
  | some i => (driver.statusSize, id + i)
  | none => (driver.atEnd, id + rest.length)

/-- The scan ends at the end of the table. -/
lemma scanned_nil (driver : Driver τ) (id : ℤ) : scanned driver id [] = (driver.atEnd, id) := by
  simp [scanned]

/-- The scan ends at a free record. -/
lemma scanned_of_free {record : Status τ} (h : record.busy = false) (id : ℤ)
    (rest : List (Status τ)) : scanned driver id (record :: rest) = (driver.statusSize, id) := by
  unfold scanned
  rw [List.findIdx?_cons]
  simp [h]

/-- The scan goes on after a busy record. -/
lemma scanned_of_busy {record : Status τ} (h : record.busy = true) (id : ℤ)
    (rest : List (Status τ)) :
    scanned driver id (record :: rest) = scanned driver (id + 1) rest := by
  unfold scanned
  rw [List.findIdx?_cons]
  cases rest.findIdx? fun status => !status.busy with
  | none =>
    have hlength : id + ((record :: rest).length : ℤ) = id + 1 + rest.length := by
      rw [List.length_cons]
      push_cast
      ring
    simpa [h] using hlength
  | some i =>
    have hindex : id + ((i + 1 : ℕ) : ℤ) = id + 1 + i := by
      push_cast
      ring
    simpa [h] using hindex

variable (driver) in
/-- The loop of `get_available_connection` counts the busy records before the first free one. -/
lemma yields_available (rest : List (Status τ)) {b : Board τ} (id : ℤ) (status : Status τ)
    (hrest : b.records.drop b.position = rest) : ∃ position,
      (Program.iterate (availableRound driver) (id, status)).Yields b (scanned driver id rest)
        { b with position := position } := by
  induction rest generalizing b id status with
  | nil =>
    have hread := yields_read_of_end driver (getElem?_of_drop_nil hrest) status
    refine ⟨b.position, Program.Yields.iterate_last ?_⟩
    unfold availableRound
    refine hread.bind ?_
    simp [driver.atEnd_ne, scanned_nil]
  | cons record rest ih =>
    have hread := yields_read_of_getElem? driver (getElem?_of_drop_cons hrest) status
    cases hbusy : record.busy with
    | false =>
      refine ⟨b.position + 1, Program.Yields.iterate_last ?_⟩
      unfold availableRound
      refine hread.bind ?_
      simp [hbusy, scanned_of_free hbusy]
    | true =>
      have hround : (availableRound driver (id, status)).Yields b (.inl (id + 1, record))
          { b with position := b.position + 1 } := by
        unfold availableRound
        refine hread.bind ?_
        simp [hbusy]
      obtain ⟨position, hy⟩ := ih (b := { b with position := b.position + 1 }) (id + 1) record
        (drop_succ_of_drop_cons hrest)
      rw [scanned_of_busy hbusy]
      exact ⟨position, hround.iterate_next hy⟩

variable (driver) in
/-- The loop of `get_active_connection_count` counts the busy records. -/
lemma yields_count (rest : List (Status τ)) {b : Board τ} (count : ℤ) (status : Status τ)
    (hrest : b.records.drop b.position = rest) : ∃ position,
      (Program.iterate (countRound driver) (count, status)).Yields b
        (count + rest.countP Status.busy) { b with position := position } := by
  induction rest generalizing b count status with
  | nil =>
    have hread := yields_read_of_end driver (getElem?_of_drop_nil hrest) status
    refine ⟨b.position, Program.Yields.iterate_last ?_⟩
    unfold countRound
    refine hread.bind ?_
    simp [driver.atEnd_ne]
  | cons record rest ih =>
    have hread := yields_read_of_getElem? driver (getElem?_of_drop_cons hrest) status
    have hround : (countRound driver (count, status)).Yields b
        (.inl (if record.busy then count + 1 else count, record))
        { b with position := b.position + 1 } := by
      unfold countRound
      refine hread.bind ?_
      simp
    have hcount : (if record.busy then count + 1 else count) + (rest.countP Status.busy : ℤ) =
        count + ((record :: rest).countP Status.busy : ℕ) := by
      rw [List.countP_cons]
      split <;> push_cast <;> ring
    obtain ⟨position, hy⟩ := ih (b := { b with position := b.position + 1 })
      (if record.busy then count + 1 else count) record (drop_succ_of_drop_cons hrest)
    rw [← hcount]
    exact ⟨position, hround.iterate_next hy⟩

/-- The least free index, or `-1`. -/
def available (records : List (Status τ)) : ℤ :=
  match records.findIdx? fun status => !status.busy with
  | some i => i
  | none => -1

/-- `get_available_connection` returns the least free index, or `-1` if there is none. -/
lemma yields_getAvailableConnection (driver : Driver τ) (uninitialized : Status τ) (b : Board τ) :
    ∃ position, (getAvailableConnection driver uninitialized).Yields b (available b.records)
      { b with position := position } := by
  obtain ⟨position, hy⟩ := yields_available driver b.records
    (b := { b with position := 0 }) 0 uninitialized List.drop_zero
  refine ⟨position, ?_⟩
  unfold getAvailableConnection
  refine (yields_seekStart b).bind ?_
  rw [if_neg (lt_irrefl 0)]
  refine hy.bind ?_
  unfold scanned available
  cases b.records.findIdx? fun status => !status.busy with
  | none => simp [driver.atEnd_ne]
  | some i => simp

/-- `get_active_connection_count` returns the number of busy records. -/
lemma yields_getActiveConnectionCount (driver : Driver τ) (uninitialized : Status τ)
    (b : Board τ) : ∃ position, (getActiveConnectionCount driver uninitialized).Yields b
      (b.records.countP Status.busy) { b with position := position } := by
  obtain ⟨position, hy⟩ := yields_count driver b.records
    (b := { b with position := 0 }) 0 uninitialized List.drop_zero
  refine ⟨position, ?_⟩
  unfold getActiveConnectionCount
  refine (yields_seekStart b).bind ?_
  rw [if_neg (lt_irrefl 0)]
  simpa using hy

end Scans

/-! ## One command -/

section Commands

variable {τ : Type} {driver : Driver τ} {b : Board τ}

/-- The indices of the free records. -/
def freeIndices (records : List (Status τ)) : Set ℕ :=
  {i | ∃ status, records[i]? = some status ∧ status.busy = false}

/-- What a create operation may do: it fails exactly if no record is free or its request fails, and
then changes no record; otherwise it returns the least free index, makes that record busy with
the given terminals and changes no other. -/
structure Creates (driver : Driver τ) (input output : τ) (b : Board τ) (r : ℤ) (b' : Board τ) :
    Prop where
  failed_iff : r < 0 ↔ (∀ status ∈ b.records, status.busy = true) ∨ driver.verdict b.calls < 0
  failed : r < 0 → b'.records = b.records
  created : 0 ≤ r → ∃ i : ℕ, r = i ∧ IsLeast (freeIndices b.records) i ∧
    (∃ status, b'.records[i]? = some status ∧ status.busy = true ∧ status.input = input ∧
      status.output = output) ∧ ∀ j ≠ i, b'.records[j]? = b.records[j]?

/-- What a destroy operation may do: it changes no record if it fails, and otherwise frees the
record it names and changes no other. -/
structure Destroys (id : BitVec 16) (b : Board τ) (r : ℤ) (b' : Board τ) : Prop where
  failed : r < 0 → b'.records = b.records
  freed : 0 ≤ r → ∀ status, b'.records[id.toNat]? = some status → status.busy = false
  others : ∀ j ≠ id.toNat, b'.records[j]? = b.records[j]?

/-- A create or a destroy operation with its arguments, and with what it finds in its
uninitialized variables. -/
inductive Command (τ : Type) where
  | createPersistent (uninitialized : Status τ) (input output : τ) (nbyte oFlags : BitVec 32)
  | createFixedSize (uninitialized : Status τ) (input output : τ) (nbyte : BitVec 32)
  | destroy (uninitialized : Attributes τ) (id : BitVec 16)

namespace Command

/-- The operation of a command. -/
def program (driver : Driver τ) : Command τ → Program (Board τ) ℤ
  | createPersistent uninitialized input output nbyte oFlags =>
    createPersistentConnection driver uninitialized input output nbyte oFlags
  | createFixedSize uninitialized input output nbyte =>
    createFixedSizeConnection driver uninitialized input output nbyte
  | destroy uninitialized id => destroyConnection driver uninitialized id

/-- What the operation of a command may do. -/
def Meets (driver : Driver τ) : Command τ → Board τ → ℤ → Board τ → Prop
  | createPersistent _ input output _ _ => Creates driver input output
  | createFixedSize _ input output _ => Creates driver input output
  | destroy _ id => Destroys id

end Command

/-- One command after another. -/
def runCommands (driver : Driver τ) : List (Command τ) → Program (Board τ) Unit
  | [] => pure ()
  | command :: commands => command.program driver >>= fun _ => runCommands driver commands

/-- Either no record is free, or there is a least free index. -/
lemma available_cases (records : List (Status τ)) :
    (available records = -1 ∧ ∀ status ∈ records, status.busy = true) ∨
      ∃ i : ℕ, available records = i ∧ IsLeast (freeIndices records) i := by
  unfold available
  cases hfound : records.findIdx? fun status => !status.busy with
  | none =>
    rw [List.findIdx?_eq_none_iff] at hfound
    exact Or.inl ⟨rfl, fun status h => by simpa using hfound status h⟩
  | some i =>
    obtain ⟨hi, hfree, hbefore⟩ := List.findIdx?_eq_some_iff_getElem.mp hfound
    refine Or.inr ⟨i, rfl, ⟨records[i], List.getElem?_eq_getElem hi, by simpa using hfree⟩, ?_⟩
    rintro j ⟨status, hj, hstatus⟩
    by_contra hlt
    obtain ⟨hlength, rfl⟩ := List.getElem?_eq_some_iff.mp hj
    exact hbefore j (not_le.mp hlt) (by simpa using hstatus)

/-- There is no free index exactly if all records are busy. -/
lemma available_eq_neg_one_iff (records : List (Status τ)) :
    available records = -1 ↔ records.countP Status.busy = records.length := by
  rw [List.countP_eq_length]
  rcases available_cases records with ⟨hnone, hbusy⟩ | ⟨i, hi, ⟨status, hstatus, hfree⟩, -⟩
  · exact iff_of_true hnone hbusy
  · refine iff_of_false (by omega) fun hbusy => ?_
    rw [hbusy status (List.mem_of_getElem? hstatus)] at hfree
    exact absurd hfree (by simp)

/-- A request with the connect flag makes its record busy with its terminals. -/
lemma requested_of_connect {attr : Attributes τ}
    (h : attr.oFlags &&& driver.flags.connect ≠ 0#32) (status : Status τ) :
    requested driver attr status = driver.connected attr status := by
  unfold requested
  rw [if_pos h]

/-- A request with the disconnect flag alone makes its record free. -/
lemma requested_of_disconnect {attr : Attributes τ}
    (h : attr.oFlags = driver.flags.disconnect) (status : Status τ) :
    requested driver attr status = driver.released status := by
  have hconnect : attr.oFlags &&& driver.flags.connect = 0#32 := by
    rw [h]
    exact driver.flags.disconnect_and_connect
  have hdisconnect : attr.oFlags &&& driver.flags.disconnect ≠ 0#32 := by
    rw [h, BitVec.and_self]
    exact driver.flags.disconnect_ne_zero
  unfold requested
  rw [if_neg (not_not.mpr hconnect), if_pos hdisconnect]

/-- Flags that include the connect flag are those of a connect request. -/
lemma or_and_connect_ne_zero (flags : Flags) (other : BitVec 32) :
    (flags.connect ||| other) &&& flags.connect ≠ 0#32 := by
  have habsorb : (flags.connect ||| other) &&& flags.connect = flags.connect := by
    ext i
    simp only [BitVec.getElem_and, BitVec.getElem_or]
    cases flags.connect[i] <;> simp
  rw [habsorb]
  exact flags.connect_ne_zero

/-- What `set_attr` returns, and the board afterwards. -/
lemma yields_setAttr (driver : Driver τ) (attr : Attributes τ) (b : Board τ) :
    (setAttr driver attr).Yields b (driver.verdict b.calls)
      { b with
        records :=
          if driver.verdict b.calls < 0 then b.records
          else b.records.modify attr.id.toNat (requested driver attr)
        calls := b.calls + 1 } := by
  unfold setAttr
  simp

/-- A free record is not busy. -/
lemma not_all_busy {i : ℕ} (h : i ∈ freeIndices b.records) :
    ¬∀ status ∈ b.records, status.busy = true := by
  intro hbusy
  obtain ⟨status, hstatus, hfree⟩ := h
  rw [hbusy status (List.mem_of_getElem? hstatus)] at hfree
  exact absurd hfree (by simp)

section CreateConnection

variable {oFlags nbyte : BitVec 32} {onFailure : ℤ → ℤ} {input output : τ}

variable (driver) in
/-- Without a free record a create operation fails. -/
lemma yields_createConnection_of_full (h : available b.records = -1) (uninitialized : Status τ) :
    ∃ position, (createConnection driver uninitialized oFlags onFailure input output nbyte).Yields
      b (-1) { b with position := position } := by
  obtain ⟨position, havailable⟩ := yields_getAvailableConnection driver uninitialized b
  refine ⟨position, ?_⟩
  unfold createConnection
  refine havailable.bind ?_
  rw [if_pos (by rw [h]; decide)]
  exact Program.Yields.pure _ _

variable (driver) in
/-- With a free record a create operation makes its request for the least one. -/
lemma yields_createConnection_of_free {i : ℕ} (h : available b.records = i) (hi : i < 65536)
    (uninitialized : Status τ) : ∃ position,
      (createConnection driver uninitialized oFlags onFailure input output nbyte).Yields b
        (if driver.verdict b.calls < 0 then onFailure (driver.verdict b.calls) else i)
        { records :=
            if driver.verdict b.calls < 0 then b.records
            else b.records.modify i
              (requested driver { id := BitVec.ofInt 16 i, oFlags, input, output, nbyte })
          position := position
          calls := b.calls + 1 } := by
  obtain ⟨position, havailable⟩ := yields_getAvailableConnection driver uninitialized b
  have hindex : (BitVec.ofInt 16 (i : ℤ)).toNat = i := by
    rw [BitVec.ofInt_natCast, BitVec.toNat_ofNat, Nat.mod_eq_of_lt hi]
  have hsetAttr := yields_setAttr driver
    { id := BitVec.ofInt 16 i, oFlags, input, output, nbyte } { b with position := position }
  rw [hindex] at hsetAttr
  refine ⟨position, ?_⟩
  unfold createConnection
  refine havailable.bind ?_
  rw [h, if_neg (by omega)]
  refine hsetAttr.bind ?_
  split
  · exact Program.Yields.pure _ _
  · exact Program.Yields.pure _ _

/-- A create operation with the connect flag in its request does what it may do, and leaves the
length of the table. -/
lemma creates_createConnection (hlength : b.records.length ≤ 65535) (uninitialized : Status τ)
    (hflags : oFlags &&& driver.flags.connect ≠ 0#32) (hnegative : ∀ ret < 0, onFailure ret < 0) :
    ∃ r b', (createConnection driver uninitialized oFlags onFailure input output nbyte).Yields
        b r b' ∧ Creates driver input output b r b' ∧ b'.records.length = b.records.length := by
  rcases available_cases b.records with ⟨hnone, hbusy⟩ | ⟨i, hi, hleast⟩
  · obtain ⟨position, hy⟩ := yields_createConnection_of_full driver hnone uninitialized
    refine ⟨-1, _, hy, ⟨?_, fun _ => rfl, fun h => absurd h (by decide)⟩, rfl⟩
    exact iff_of_true (by decide) (Or.inl hbusy)
  · obtain ⟨status, hstatus, -⟩ := hleast.1
    have hlt : i < b.records.length := (List.getElem?_eq_some_iff.mp hstatus).1
    obtain ⟨position, hy⟩ :=
      yields_createConnection_of_free driver hi (by omega) uninitialized
    refine ⟨_, _, hy, ?_, ?_⟩
    · rcases lt_or_ge (driver.verdict b.calls) 0 with hfails | hsucceeds
      · have hresult := hnegative _ hfails
        simp only [if_pos hfails]
        exact ⟨iff_of_true hresult (Or.inr hfails), fun _ => rfl,
          fun h => absurd h (not_le.mpr hresult)⟩
      · have hmade : ¬driver.verdict b.calls < 0 := not_lt.mpr hsucceeds
        simp only [if_neg hmade]
        refine ⟨iff_of_false (by omega) (not_or.mpr ⟨not_all_busy hleast.1, hmade⟩),
          fun h => absurd h (by omega), fun _ => ⟨i, rfl, hleast, ?_, fun j hj => ?_⟩⟩
        · refine ⟨driver.connected ⟨BitVec.ofInt 16 i, oFlags, input, output, nbyte⟩ status, ?_,
            driver.connected_busy _ _, driver.connected_input _ _, driver.connected_output _ _⟩
          rw [List.getElem?_modify_eq, hstatus]
          exact congrArg some (requested_of_connect hflags status)
        · exact List.getElem?_modify_ne _ _ hj.symm
    · split
      · rfl
      · exact List.length_modify _ _ _

end CreateConnection

/-- A destroy operation does what it may do, and leaves the length of the table. -/
lemma destroys_destroyConnection (driver : Driver τ) (attr : Attributes τ) (id : BitVec 16)
    (b : Board τ) : ∃ r b', (destroyConnection driver attr id).Yields b r b' ∧
      Destroys id b r b' ∧ b'.records.length = b.records.length := by
  refine ⟨_, _, yields_setAttr driver _ b, ?_, ?_⟩
  · rcases lt_or_ge (driver.verdict b.calls) 0 with hfails | hsucceeds
    · simp only [if_pos hfails]
      exact ⟨fun _ => rfl, fun h => absurd h (not_le.mpr hfails), fun _ _ => rfl⟩
    · simp only [if_neg (not_lt.mpr hsucceeds)]
      refine ⟨fun h => absurd h (not_lt.mpr hsucceeds), fun _ status hstatus => ?_, fun j hj => ?_⟩
      · rw [List.getElem?_modify_eq] at hstatus
        obtain ⟨before, -, rfl⟩ := Option.map_eq_some_iff.mp hstatus
        rw [requested_of_disconnect rfl]
        exact driver.released_free before
      · exact List.getElem?_modify_ne _ _ hj.symm
  · split
    · rfl
    · exact List.length_modify _ _ _

variable (driver) in
/-- Every command does what it may do, and leaves the length of the table. -/
lemma Command.meets (hlength : b.records.length ≤ 65535) (command : Command τ) :
    ∃ r b', (command.program driver).Yields b r b' ∧ command.Meets driver b r b' ∧
      b'.records.length = b.records.length := by
  have hconnect := or_and_connect_ne_zero driver.flags
  cases command with
  | createPersistent uninitialized input output nbyte oFlags =>
    refine creates_createConnection hlength uninitialized ?_ fun ret h => h
    rw [BitVec.or_assoc]
    exact hconnect _
  | createFixedSize uninitialized input output nbyte =>
    exact creates_createConnection hlength uninitialized (hconnect _) fun _ _ => by decide
  | destroy uninitialized id => exact destroys_destroyConnection driver uninitialized id b

/-! ## Runs -/

/-- The two query operations report the table: one the number of busy records, the other `-1`
exactly if that is the length of the table; and neither changes a record. -/
def Reports (driver : Driver τ) (b : Board τ) : Prop :=
  ∀ uninitialized, ∃ count available b₁ b₂,
    (getActiveConnectionCount driver uninitialized).Yields b count b₁ ∧
      (getAvailableConnection driver uninitialized).Yields b available b₂ ∧
      b₁.records = b.records ∧ b₂.records = b.records ∧
      count = b.records.countP Status.busy ∧ (available = -1 ↔ count = b.records.length)

/-- Every board is reported. -/
lemma reports (driver : Driver τ) (b : Board τ) : Reports driver b := by
  intro uninitialized
  obtain ⟨p, hcount⟩ := yields_getActiveConnectionCount driver uninitialized b
  obtain ⟨q, havailable⟩ := yields_getAvailableConnection driver uninitialized b
  refine ⟨_, _, _, _, hcount, havailable, rfl, rfl, rfl, ?_⟩
  rw [available_eq_neg_one_iff]
  exact Nat.cast_inj.symm

/-- The table of connections over whole runs.  After any sequence of commands on a table of at
most `65535` records, the next command does what it may do: a create operation that succeeds
returns the least free index, makes that record busy with the given terminals and changes no
other, and it fails, without a change, exactly if no record is free or its request fails.  And
the two query operations report the table. -/
theorem runCommands_keeps_table (driver : Driver τ) (b : Board τ)
    (hlength : b.records.length ≤ 65535) (commands : List (Command τ)) :
    ∃ b', (runCommands driver commands).Yields b () b' ∧ Reports driver b' ∧
      ∀ command : Command τ, ∃ r b'', (command.program driver).Yields b' r b'' ∧
        command.Meets driver b' r b'' ∧ Reports driver b'' := by
  induction commands generalizing b with
  | nil =>
    refine ⟨b, by simp [runCommands], reports driver b, fun command => ?_⟩
    obtain ⟨r, b'', hy, hmeets, -⟩ := command.meets driver hlength
    exact ⟨r, b'', hy, hmeets, reports driver b''⟩
  | cons command commands ih =>
    obtain ⟨r, b₁, hy, -, hkept⟩ := command.meets driver hlength
    obtain ⟨b', hrun, hrest⟩ := ih b₁ (by omega)
    exact ⟨b', hy.bind hrun, hrest⟩

end Commands

/-- A device with two terminals that refuses the second request. -/
def refusesSecond : Driver Bool where
  flags := ⟨1#32, 2#32, 4#32, 8#32, by decide, by decide, by decide⟩
  statusSize := 36
  atEnd := 0
  verdict n := if n = 1 then -1 else 0
  connected attr _ := ⟨1#32, attr.input, attr.output⟩
  released _ := ⟨0#32, false, false⟩
  atEnd_ne := by decide
  connected_busy _ _ := rfl
  connected_input _ _ := rfl
  connected_output _ _ := rfl
  released_free _ := rfl

/-- A table with a hole: one connection is created in it, the next request is refused. -/
theorem runCommands_keeps_table_with_hole :
    ∃ b', (runCommands refusesSecond [.createPersistent ⟨7#32, true, true⟩ true false 16#32 0#32,
        .createFixedSize ⟨0#32, true, true⟩ false true 16#32,
        .destroy ⟨9#16, 1#32, true, true, 0#32⟩ 0#16]).Yields
          ⟨[⟨5#32, false, true⟩, ⟨0#32, false, false⟩, ⟨1#32, true, true⟩, ⟨0#32, true, true⟩], 2, 0⟩
          () b' ∧ Reports refusesSecond b' ∧
      ∀ command : Command Bool, ∃ r b'', (command.program refusesSecond).Yields b' r b'' ∧
        command.Meets refusesSecond b' r b'' ∧ Reports refusesSecond b'' :=
  runCommands_keeps_table refusesSecond _ (by decide) _

end HalAPI.Switchboard
