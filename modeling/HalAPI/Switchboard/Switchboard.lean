import HalAPI.Foundation.Program

/-!
# Connections of the switchboard

The switchboard device is a table of status records, one for each connection it can carry.  A
record is busy if its flags are not zero.  `get_available_connection` and
`get_active_connection_count` read the table from its start, record by record, until a read is
short; the two create operations ask the device to connect the first free record, and
`destroy_connection` to disconnect one.  This class keeps the return values of its calls itself:
a failed call does not skip the next one.

The header of the class and the data types of the device are not part of the repository.  The
flags and the terminals are parameters here, and what the device does with a request is a
`Driver`.
-/

namespace HalAPI.Switchboard

open Foundation

/-- `switchboard_status_t`, as far as the operations use it -/
structure Status (τ : Type) where
  oFlags : BitVec 32
  input : τ
  output : τ
  deriving DecidableEq

/-- `switchboard_attr_t` -/
structure Attributes (τ : Type) where
  id : BitVec 16
  oFlags : BitVec 32
  input : τ
  output : τ
  nbyte : BitVec 32
  deriving DecidableEq

/-- The record carries a connection. -/
def Status.busy {τ : Type} (status : Status τ) : Bool := status.oFlags != 0#32

/-- The flags of a request. -/
structure Flags where
  connect : BitVec 32
  disconnect : BitVec 32
  isPersistent : BitVec 32
  isFixedSize : BitVec 32
  connect_ne_zero : connect ≠ 0#32
  disconnect_ne_zero : disconnect ≠ 0#32
  disconnect_and_connect : disconnect &&& connect = 0#32

/-- The device: what a read at the end of the table returns, how a successful request changes
the record it names, and what `set_attr` returns the `n`-th time it is called. -/
structure Driver (τ : Type) where
  flags : Flags
  statusSize : ℤ
  atEnd : ℤ
  verdict : ℕ → ℤ
  connected : Attributes τ → Status τ → Status τ
  released : Status τ → Status τ
  atEnd_ne : atEnd ≠ statusSize
  connected_busy : ∀ attr status, (connected attr status).busy = true
  connected_input : ∀ attr status, (connected attr status).input = attr.input
  connected_output : ∀ attr status, (connected attr status).output = attr.output
  released_free : ∀ status, (released status).busy = false

/-- The table, the file position in records, and the number of `set_attr` calls so far. -/
structure Board (τ : Type) where
  records : List (Status τ)
  position : ℕ
  calls : ℕ
  deriving DecidableEq

/-! ## Calls of the device -/

section Calls

variable {τ : Type} (driver : Driver τ)

/-- `seek(Location(0), whence_set)` -/
def seekStart : Program (Board τ) ℤ := Program.step fun b => (0, { b with position := 0 })

/-- `read(&status, Size(sizeof(status)))`: the return value and the status afterwards.  A read
at the end of the table leaves the status as it is. -/
def read (status : Status τ) : Program (Board τ) (ℤ × Status τ) :=
  Program.step fun b =>
    match b.records[b.position]? with
    | some record => ((driver.statusSize, record), { b with position := b.position + 1 })
    | none => ((driver.atEnd, status), b)

/-- The record after a successful request. -/
def requested (attr : Attributes τ) (status : Status τ) : Status τ :=
  if attr.oFlags &&& driver.flags.connect ≠ 0#32 then driver.connected attr status
  else if attr.oFlags &&& driver.flags.disconnect ≠ 0#32 then driver.released status
  else status

/-- `set_attr(attr)` -/
def setAttr (attr : Attributes τ) : Program (Board τ) ℤ :=
  Program.step fun b =>
    (driver.verdict b.calls,
      { b with
        records :=
          if driver.verdict b.calls < 0 then b.records
          else b.records.modify attr.id.toNat (requested driver attr)
        calls := b.calls + 1 })

end Calls

/-! ## The operations -/

section Operations

variable {τ : Type} (driver : Driver τ) (uninitialized : Status τ)

/-- A round of the loop of `get_available_connection`. -/
def availableRound (var : ℤ × Status τ) : Program (Board τ) ((ℤ × Status τ) ⊕ (ℤ × ℤ)) := do
  let (ret, status) ← read driver var.2
  let id := if ret = driver.statusSize ∧ status.busy then var.1 + 1 else var.1
  if ret = driver.statusSize ∧ status.busy then pure (.inl (id, status)) else pure (.inr (ret, id))

/-- `Switchboard::get_available_connection` -/
def getAvailableConnection : Program (Board τ) ℤ := do
  let ret ← seekStart
  if ret < 0 then pure ret
  else
    let (ret, id) ← Program.iterate (availableRound driver) (0, uninitialized)
    if ret ≠ driver.statusSize then pure (-1) else pure id

/-- A round of the loop of `get_active_connection_count`. -/
def countRound (var : ℤ × Status τ) : Program (Board τ) ((ℤ × Status τ) ⊕ ℤ) := do
  let (ret, status) ← read driver var.2
  let count := if ret = driver.statusSize ∧ status.busy then var.1 + 1 else var.1
  if ret = driver.statusSize then pure (.inl (count, status)) else pure (.inr count)

/-- `Switchboard::get_active_connection_count` -/
def getActiveConnectionCount : Program (Board τ) ℤ := do
  let ret ← seekStart
  if ret < 0 then pure ret
  else Program.iterate (countRound driver) (0, uninitialized)

/-- The body the two create operations share: they differ in the flags of the request and in
what they return when it fails. -/
def createConnection (oFlags : BitVec 32) (onFailure : ℤ → ℤ) (input output : τ)
    (nbyte : BitVec 32) : Program (Board τ) ℤ := do
  let id ← getAvailableConnection driver uninitialized
  if id < 0 then pure (-1)
  else
    let ret ← setAttr driver
      { id := BitVec.ofInt 16 id, oFlags := oFlags, input := input, output := output, nbyte := nbyte }
    if ret < 0 then pure (onFailure ret) else pure id

/-- `Switchboard::create_persistent_connection` -/
def createPersistentConnection (input output : τ) (nbyte oFlags : BitVec 32) :
    Program (Board τ) ℤ :=
  createConnection driver uninitialized
    (driver.flags.connect ||| driver.flags.isPersistent ||| oFlags) id input output nbyte

/-- `Switchboard::create_fixed_size_connection` -/
def createFixedSizeConnection (input output : τ) (nbyte : BitVec 32) : Program (Board τ) ℤ :=
  createConnection driver uninitialized (driver.flags.connect ||| driver.flags.isFixedSize)
    (fun _ => -1) input output nbyte

/-- `Switchboard::destroy_connection(u16 id)`, with the contents of the attributes it does not
set -/
def destroyConnection (attr : Attributes τ) (id : BitVec 16) : Program (Board τ) ℤ :=
  setAttr driver { attr with id := id, oFlags := driver.flags.disconnect }

end Operations

end HalAPI.Switchboard
