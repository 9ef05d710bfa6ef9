import HalAPI.Foundation.Runs
import HalAPI.Foundation.CString

/-!
# `phylib_util_open` and `phylib_util_close`

The two C functions keep a table of descriptors, one for each port.  `phylib_util_open` fills the
table with `-1` the first time it is called, builds the path of the device in a buffer of twelve
bytes and opens it unless the entry of the port says that it is open.  `phylib_util_close` closes
the descriptor of a port and does not look whether the table was ever filled.

So if a close comes before the first open, what the memory held before goes to `close()`, unless
it happens to be `-1` (`safeRun_iff`).
-/

namespace HalAPI.Phylib

open Foundation

/-! ## Data -/

/-- `NO_PORT_NUMBER` -/
def noPortNumber : BitVec 32 := 0xAAEE5566#32

/-- The memory from the start of the table on, and `*init`. -/
structure Table where
  fd : ℕ → ℤ
  init : Bool

/-- What a call of `phylib_util_open` returns, the path it passed to `open()` if it did, the entry
of the table it used, its buffer at the end, and the table after it. -/
structure Opening where
  ret : ℤ
  opened : Option (List Char)
  slot : ℕ
  buffer : List Char
  table : Table

/-- What a call of `phylib_util_close` returns, the descriptor it passed to `close()` if it did, and
the table after it. -/
structure Closing where
  ret : ℤ
  closed : Option ℤ
  table : Table

/-! ## The code -/

/-- `'0' + port`, as a `char` -/
def portChar (port : BitVec 8) : Char := Char.ofNat ((48#8 + port).toNat)

/-- The table after the first lines of `phylib_util_open`: all entries are `-1`. -/
def fillTable (total : ℕ) (table : Table) : Table :=
  if table.init then table
  else { fd := fun i => if i < total then -1 else table.fd i, init := true }

/-- The buffer and the port that `phylib_util_open` goes on with, from the contents its buffer has
before it is filled in.  The port is a `u8`. -/
def buildPath (uninitialized name : List Char) (port : BitVec 8) : List Char × BitVec 8 :=
  let buffer := strcat (strcpy uninitialized "/dev/".toList) name
  let len := strlen buffer
  if port.setWidth 32 ≠ noPortNumber then
    (overwrite (overwrite buffer len [portChar port]) (len + 1) ['\x00'], port)
  else (buffer, 0)

/-- `phylib_util_open`; `result` is what `open()` returns if it is called -/
def utilOpen (uninitialized name : List Char) (port : BitVec 8) (total : ℕ) (result : ℤ)
    (table : Table) : Opening :=
  let table := fillTable total table
  let (buffer, port) := buildPath uninitialized name port
  if table.fd port.toNat ≠ -1 then
    { ret := 0, opened := none, slot := port.toNat, buffer := buffer, table := table }
  else
    { ret := if result < 0 then -1 else 0
      opened := some (stringOf buffer)
      slot := port.toNat
      buffer := buffer
      table := { table with fd := Function.update table.fd port.toNat result } }

/-- `phylib_util_close`; `result` is what `close()` returns if it is called -/
def utilClose (port : BitVec 8) (result : ℤ) (table : Table) : Closing :=
  if table.fd port.toNat ≠ -1 then
    { ret := result
      closed := some (table.fd port.toNat)
      table := { table with fd := Function.update table.fd port.toNat (-1) } }
  else { ret := 0, closed := none, table := table }

/-! ## Sequences of calls -/

/-- A port below `total`, as a `u8`. -/
abbrev Port (total : ℕ) : Type := { port : BitVec 8 // port.toNat < total }

/-- A call of one of the two functions, with what the system does if it is asked: the descriptor
that `open()` grants, if it does not fail, or what `close()` returns. -/
inductive Call (total : ℕ)
  | utilOpen (uninitialized name : List Char) (port : Port total) (granted : Option ℕ)
  | utilClose (port : Port total) (result : ℤ)

/-- What `open()` returns. -/
def resultOf (granted : Option ℕ) : ℤ := granted.elim (-1) fun d => d

/-- The table, and the descriptor that was opened for each port and was not closed since.  A call
of `close()` closes the descriptor even if it reports an error. -/
structure World where
  table : Table
  held : ℕ → Option ℕ

/-- Before the first call: the memory of the table holds anything, and nothing is open. -/
def World.start (fd : ℕ → ℤ) : World :=
  { table := { fd := fd, init := false }, held := fun _ => none }

/-- The port that is called. -/
def Call.port {total : ℕ} : Call total → BitVec 8
  | .utilOpen _ _ port _ => port.1
  | .utilClose port _ => port.1

/-- The call is one of `phylib_util_close`. -/
def Call.isClose {total : ℕ} : Call total → Bool
  | .utilOpen .. => false
  | .utilClose .. => true

section Calls

variable {total : ℕ}

/-- One call. -/
def step (w : World) : Call total → World
  | .utilOpen uninitialized name port granted =>
    let opening := utilOpen uninitialized name port.1 total (resultOf granted) w.table
    { table := opening.table
      held :=
        if opening.opened.isSome then Function.update w.held port.1.toNat granted else w.held }
  | .utilClose port result =>
    let closing := utilClose port.1 result w.table
    { table := closing.table
      held := if closing.closed.isSome then Function.update w.held port.1.toNat none else w.held }

/-- The call opens nothing twice and closes nothing that is not open for its port. -/
def Safe (w : World) : Call total → Prop
  | .utilOpen uninitialized name port granted =>
    (utilOpen uninitialized name port.1 total (resultOf granted) w.table).opened.isSome →
      w.held port.1.toNat = none
  | .utilClose port result =>
    ∀ d, (utilClose port.1 result w.table).closed = some d →
      ∃ n : ℕ, w.held port.1.toNat = some n ∧ d = n

variable (total) in
/-- Every entry of the table is the descriptor that is open for its port, and `-1` if there is
none. -/
def Represents (w : World) : Prop := ∀ i < total, w.table.fd i = resultOf (w.held i)

/-- Every call of the run is safe, and from the first call of `phylib_util_open` on the table
represents what is open. -/
def SafeRun (w : World) (calls : List (Call total)) : Prop :=
  Along step Safe w calls ∧
    ∀ pre, pre <+: calls → (∃ c ∈ pre, c.isClose = false) → Represents total (run step w pre)

end Calls

/-! ## A table that represents what is open -/

/-- An entry is `-1` exactly if nothing is open for its port. -/
@[simp] lemma resultOf_eq_neg_one_iff (granted : Option ℕ) :
    resultOf granted = -1 ↔ granted = none := by
  cases granted with
  | none => simp [resultOf]
  | some d =>
    have hne : (d : ℤ) ≠ -1 := by omega
    simp [resultOf, hne]

/-- The sentinel has more than eight bits, so no `u8` is equal to it. -/
lemma setWidth_ne_noPortNumber (port : BitVec 8) : port.setWidth 32 ≠ noPortNumber := by
  intro h
  have hnat := congrArg BitVec.toNat h
  simp only [noPortNumber, BitVec.toNat_setWidth, BitVec.toNat_ofNat] at hnat
  omega

/-- The port that is used is the one that was passed. -/
@[simp] lemma buildPath_snd (uninitialized name : List Char) (port : BitVec 8) :
    (buildPath uninitialized name port).2 = port := by
  simp [buildPath, setWidth_ne_noPortNumber]

section Tables

variable {total : ℕ} {w : World}

/-- A filled table is not filled again. -/
@[simp] lemma fillTable_of_init {table : Table} (h : table.init = true) :
    fillTable total table = table := by
  simp [fillTable, h]

/-- A table that was not filled is filled with `-1`. -/
lemma fillTable_fd {table : Table} (h : table.init = false) {i : ℕ} (hi : i < total) :
    (fillTable total table).fd i = -1 := by
  simp [fillTable, h, hi]

/-- A table that was filled says so. -/
@[simp] lemma fillTable_init (table : Table) : (fillTable total table).init = true := by
  by_cases h : table.init = true <;> simp [fillTable, h]

/-- The buffer at the end does not depend on the table. -/
@[simp] lemma utilOpen_buffer (uninitialized name : List Char) (port : BitVec 8) (result : ℤ)
    (table : Table) :
    (utilOpen uninitialized name port total result table).buffer =
      (buildPath uninitialized name port).1 := by
  by_cases h : (fillTable total table).fd port.toNat = -1 <;> simp [utilOpen, h]

/-- The entry that is used is that of the port. -/
@[simp] lemma utilOpen_slot (uninitialized name : List Char) (port : BitVec 8) (result : ℤ)
    (table : Table) :
    (utilOpen uninitialized name port total result table).slot = port.toNat := by
  by_cases h : (fillTable total table).fd port.toNat = -1 <;> simp [utilOpen, h]

/-- An open that finds a descriptor in the table uses it. -/
lemma utilOpen_of_ne {port : BitVec 8} {table : Table} (uninitialized name : List Char)
    (result : ℤ) (h : (fillTable total table).fd port.toNat ≠ -1) :
    (utilOpen uninitialized name port total result table).opened = none ∧
      (utilOpen uninitialized name port total result table).table = fillTable total table := by
  simp [utilOpen, h]

/-- An open that finds none enters what `open()` returns. -/
lemma utilOpen_of_eq {port : BitVec 8} {table : Table} (uninitialized name : List Char)
    (result : ℤ) (h : (fillTable total table).fd port.toNat = -1) :
    (utilOpen uninitialized name port total result table).opened =
        some (stringOf (buildPath uninitialized name port).1) ∧
      (utilOpen uninitialized name port total result table).table =
        { fillTable total table with
          fd := Function.update (fillTable total table).fd port.toNat result } := by
  simp [utilOpen, h]

/-- The table was filled, and represents what is open. -/
structure Tracks (total : ℕ) (w : World) : Prop where
  init : w.table.init = true
  represents : Represents total w

/-- Once the table is filled, if it is not yet, it represents what is open. -/
def Ready (total : ℕ) (w : World) : Prop :=
  Tracks total { w with table := fillTable total w.table }

/-- A table that represents what is open is ready. -/
lemma Tracks.ready (h : Tracks total w) : Ready total w := by
  unfold Ready
  rwa [fillTable_of_init h.init]

/-- Whatever the memory holds, the table is ready at the start. -/
lemma ready_start (fd : ℕ → ℤ) : Ready total (World.start fd) where
  init := fillTable_init _
  represents i hi := by simpa [World.start, resultOf] using fillTable_fd rfl hi

/-- Entering the same descriptor in the table and for the port keeps the table right. -/
lemma Tracks.update (h : Tracks total w) (p : ℕ) (granted : Option ℕ) :
    Tracks total
      { table := { w.table with fd := Function.update w.table.fd p (resultOf granted) }
        held := Function.update w.held p granted } where
  init := h.init
  represents i hi := by
    rcases eq_or_ne i p with rfl | hne
    · simp
    · simpa [hne] using h.represents i hi

/-- After an open the table is filled and represents what is open, if it was ready. -/
lemma Ready.step_utilOpen (h : Ready total w) (uninitialized name : List Char)
    (port : Port total) (granted : Option ℕ) :
    Tracks total (step w (.utilOpen uninitialized name port granted)) := by
  by_cases hentry : (fillTable total w.table).fd port.1.toNat = -1
  · obtain ⟨hopened, htable⟩ :=
      utilOpen_of_eq uninitialized name (resultOf granted) hentry
    have hstep := Tracks.update h port.1.toNat granted
    simpa [step, hopened, htable] using hstep
  · obtain ⟨hopened, htable⟩ :=
      utilOpen_of_ne uninitialized name (resultOf granted) hentry
    simpa [step, hopened, htable, Ready] using h

/-- An open of a ready table opens nothing twice. -/
lemma Ready.safe_utilOpen (h : Ready total w) (uninitialized name : List Char)
    (port : Port total) (granted : Option ℕ) :
    Safe w (.utilOpen uninitialized name port granted) := by
  intro hopened
  have hentry : (fillTable total w.table).fd port.1.toNat = -1 := by
    by_contra hne
    simp [(utilOpen_of_ne uninitialized name (resultOf granted) hne).1] at hopened
  rw [h.represents port.1.toNat port.2] at hentry
  exact (resultOf_eq_neg_one_iff _).mp hentry

/-- A close keeps a table that represents what is open. -/
lemma Tracks.step_utilClose (h : Tracks total w) (port : Port total) (result : ℤ) :
    Tracks total (step w (.utilClose port result)) := by
  by_cases hentry : w.table.fd port.1.toNat = -1
  · simpa [step, utilClose, hentry] using h
  · simpa [step, utilClose, hentry, resultOf] using h.update port.1.toNat none

/-- A close of a table that represents what is open closes what is open for its port. -/
lemma Tracks.safe_utilClose (h : Tracks total w) (port : Port total) (result : ℤ) :
    Safe w (.utilClose port result) := by
  intro d hd
  have hrep := h.represents port.1.toNat port.2
  cases hheld : w.held port.1.toNat with
  | none =>
    rw [hheld] at hrep
    simp [utilClose, hrep, resultOf] at hd
  | some n =>
    rw [hheld] at hrep
    refine ⟨n, rfl, ?_⟩
    by_cases hentry : w.table.fd port.1.toNat = -1
    · simp [utilClose, hentry] at hd
    · have hclosed : w.table.fd port.1.toNat = d := by simpa [utilClose, hentry] using hd
      exact hclosed.symm.trans hrep

/-- Once the table represents what is open, every call keeps it so. -/
lemma Tracks.step (h : Tracks total w) (c : Call total) : Tracks total (step w c) := by
  cases c with
  | utilOpen uninitialized name port granted =>
    exact h.ready.step_utilOpen uninitialized name port granted
  | utilClose port result => exact h.step_utilClose port result

/-- Once the table represents what is open, every call is safe. -/
lemma Tracks.safe (h : Tracks total w) (c : Call total) : Safe w c := by
  cases c with
  | utilOpen uninitialized name port granted =>
    exact h.ready.safe_utilOpen uninitialized name port granted
  | utilClose port result => exact h.safe_utilClose port result

/-- Once the table represents what is open, it does so throughout every run, and every call of the
run is safe. -/
lemma Tracks.run (h : Tracks total w) (calls : List (Call total)) :
    Along Phylib.step Safe w calls ∧ Throughout Phylib.step (Tracks total) w calls := by
  have hall : Along Phylib.step (fun _ _ => True) w calls :=
    (along_iff_forall_mem Phylib.step w calls).mpr fun _ _ => trivial
  exact ⟨Along.of_invariant (fun _ c hw _ => hw.step c) (fun _ c hw _ => hw.safe c) h hall,
    throughout_of_step (fun _ c hw => hw.step c) h calls⟩

end Tables

/-! ## Runs -/

section Results

variable {total : ℕ} {w : World}

/-- A run that begins with an open is safe if the table is ready. -/
lemma Ready.safeRun_utilOpen_cons (h : Ready total w) (uninitialized name : List Char)
    (port : Port total) (granted : Option ℕ) (calls : List (Call total)) :
    SafeRun w (.utilOpen uninitialized name port granted :: calls) := by
  obtain ⟨halong, hthroughout⟩ :=
    (h.step_utilOpen uninitialized name port granted).run calls
  refine ⟨⟨h.safe_utilOpen uninitialized name port granted, halong⟩, ?_⟩
  rintro pre hpre ⟨c, hc, -⟩
  cases pre with
  | nil => simp at hc
  | cons first pre =>
    obtain ⟨rfl, hrest⟩ := List.cons_prefix_cons.mp hpre
    exact (hthroughout pre hrest).represents

/-- A close on a port without an entry does nothing. -/
lemma step_utilClose_of_eq (port : Port total) (result : ℤ)
    (h : w.table.fd port.1.toNat = -1) : step w (.utilClose port result) = w := by
  simp [step, utilClose, h]

/-- While nothing is open, a close is safe exactly if its port has no entry. -/
lemma safe_utilClose_iff (hheld : w.held = fun _ => none) (port : Port total) (result : ℤ) :
    Safe w (.utilClose port result) ↔ w.table.fd port.1.toNat = -1 := by
  constructor
  · intro hsafe
    by_contra hentry
    obtain ⟨n, hn, -⟩ := hsafe (w.table.fd port.1.toNat) (by simp [utilClose, hentry])
    simp [hheld] at hn
  · intro hentry d hd
    simp [utilClose, hentry] at hd

/-- A run that begins with a close is safe exactly if the close and the rest of it are. -/
lemma safeRun_utilClose_cons (port : Port total) (result : ℤ) (calls : List (Call total)) :
    SafeRun w (.utilClose port result :: calls) ↔
      Safe w (.utilClose port result) ∧ SafeRun (step w (.utilClose port result)) calls := by
  constructor
  · rintro ⟨⟨hsafe, halong⟩, hrep⟩
    refine ⟨hsafe, halong, ?_⟩
    rintro pre hpre ⟨c, hc, hopen⟩
    exact hrep (.utilClose port result :: pre) (List.cons_prefix_cons.mpr ⟨rfl, hpre⟩)
      ⟨c, List.mem_cons_of_mem _ hc, hopen⟩
  · rintro ⟨hsafe, halong, hrep⟩
    refine ⟨⟨hsafe, halong⟩, ?_⟩
    rintro pre hpre ⟨c, hc, hopen⟩
    cases pre with
    | nil => simp at hc
    | cons first pre =>
      obtain ⟨rfl, hrest⟩ := List.cons_prefix_cons.mp hpre
      rcases List.mem_cons.mp hc with rfl | hmem
      · simp [Call.isClose] at hopen
      · exact hrep pre hrest ⟨c, hmem, hopen⟩

/-- The exact condition for a run to be safe: every call of `phylib_util_close` that comes before
the first call of `phylib_util_open` is on a port whose entry happens to be `-1` at the start. -/
theorem safeRun_iff (fd : ℕ → ℤ) (calls : List (Call total)) :
    SafeRun (World.start fd) calls ↔
      ∀ c ∈ calls.takeWhile Call.isClose, fd c.port.toNat = -1 := by
  induction calls with
  | nil => simp [SafeRun]
  | cons c calls ih =>
    cases c with
    | utilOpen uninitialized name port granted =>
      have hsafe := (ready_start fd).safeRun_utilOpen_cons uninitialized name port granted calls
      simpa [Call.isClose] using hsafe
    | utilClose port result =>
      rw [safeRun_utilClose_cons, safe_utilClose_iff rfl, List.takeWhile_cons_of_pos rfl,
        List.forall_mem_cons]
      refine and_congr_right fun hentry => ?_
      rw [step_utilClose_of_eq port result hentry]
      exact ih

/-- A close before the first open passes to `close()` what the memory held. -/
theorem not_safeRun_close_first :
    ¬ SafeRun (World.start fun _ => 7) [(.utilClose ⟨0#8, by decide⟩ 0 : Call 1)] := by
  rintro ⟨⟨hsafe, -⟩, -⟩
  obtain ⟨n, hn, -⟩ := hsafe 7 rfl
  cases hn

end Results

end HalAPI.Phylib
