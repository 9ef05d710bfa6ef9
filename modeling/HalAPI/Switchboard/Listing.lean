import HalAPI.Foundation.Refinement
import HalAPI.Switchboard.Connections

/-!
# The switchboard as a ledger

`print_connections` reads the table from its start and prints a line for every busy record, with
its index and the names of its terminals.

For a caller the table is a ledger: a partial map from ids to pairs of terminals.  A create
operation enters its terminals at the least id that is not in use and returns that id, a destroy
operation removes an id, and an operation that fails changes nothing.  `listing_of_run` says
that after any sequence of commands what is printed is the ledger in the order of the ids, and
that `get_active_connection_count` is the number of lines.
-/

namespace HalAPI.Switchboard

open Foundation

variable {τ ν : Type}

/-! ## The code -/

/-- What `printf("%d:%s -> %s\n", id, status.input.name, status.output.name)` prints. -/
structure Line (ν : Type) where
  id : ℤ
  input : ν
  output : ν
  deriving DecidableEq

section Code

variable (driver : Driver τ) (name : τ → ν) (uninitialized : Status τ)

/-- The line of a record. -/
def Status.line (status : Status τ) (id : ℤ) : Line ν := ⟨id, name status.input, name status.output⟩

/-- A round of the loop of `print_connections`, with the index, the status and the lines so far. -/
def printRound (var : ℤ × Status τ × List (Line ν)) :
    Program (Board τ) ((ℤ × Status τ × List (Line ν)) ⊕ List (Line ν)) := do
  let (ret, status) ← read driver var.2.1
  if ret = driver.statusSize then
    pure (.inl (var.1 + 1, status,
      if status.busy then var.2.2 ++ [status.line name var.1] else var.2.2))
  else pure (.inr var.2.2)

/-- `Switchboard::print_connections`, which returns the lines it prints -/
def printConnections : Program (Board τ) (List (Line ν)) := do
  let ret ← seekStart
  if ret < 0 then pure []
  else Program.iterate (printRound driver name) (0, uninitialized, [])

end Code

/-! ## The ledger -/

/-- A ledger: the terminals of every id that is in use. -/
abbrev Ledger (τ : Type) : Type := ℕ → Option (τ × τ)

/-- The terminals of a record, if it is busy. -/
def Status.terminals (status : Status τ) : Option (τ × τ) :=
  if status.busy then some (status.input, status.output) else none

/-- The ledger of a table. -/
def ledgerOf (records : List (Status τ)) : Ledger τ := fun i => records[i]?.bind Status.terminals

/-- The line of an entry. -/
def entryLine (name : τ → ν) (i : ℕ) (entry : τ × τ) : Line ν := ⟨i, name entry.1, name entry.2⟩

/-- The entries of a ledger below `n`, in the order of the ids. -/
def listing (name : τ → ν) (n : ℕ) (m : Ledger τ) : List (Line ν) :=
  (List.range n).filterMap fun i => (m i).map (entryLine name i)

/-- What a create operation does to a ledger with ids below `n`. -/
def Enters (n : ℕ) (input output : τ) (m : Ledger τ) (r : ℤ) (m' : Ledger τ) : Prop :=
  r < 0 ∧ m' = m ∨
    ∃ i < n, r = i ∧ m i = none ∧ (∀ j < i, m j ≠ none) ∧
      m' = Function.update m i (some (input, output))

/-- What a destroy operation does to a ledger. -/
def Removes (id : BitVec 16) (m : Ledger τ) (r : ℤ) (m' : Ledger τ) : Prop :=
  r < 0 ∧ m' = m ∨ 0 ≤ r ∧ m' = Function.update m id.toNat none

/-- What a command does to a ledger with ids below `n`. -/
def Command.Notes (n : ℕ) (m : Ledger τ) (command : Command τ) (r : ℤ) (m' : Ledger τ) : Prop :=
  match command with
  | .createPersistent _ input output _ _ => Enters n input output m r m'
  | .createFixedSize _ input output _ => Enters n input output m r m'
  | .destroy _ id => Removes id m r m'

section Tables

variable {records : List (Status τ)} {i : ℕ}

/-- An id is not in use exactly if its record is free or there is none. -/
lemma ledgerOf_eq_none_iff :
    ledgerOf records i = none ↔ ∀ status, records[i]? = some status → status.busy = false := by
  unfold ledgerOf
  cases hrecord : records[i]? with
  | none => simp
  | some status => simp [Status.terminals]

/-- The free indices of a table are the ids below its length that are not in use. -/
lemma mem_freeIndices_iff :
    i ∈ freeIndices records ↔ i < records.length ∧ ledgerOf records i = none := by
  rw [ledgerOf_eq_none_iff]
  constructor
  · rintro ⟨status, hstatus, hfree⟩
    refine ⟨(List.getElem?_eq_some_iff.mp hstatus).1, fun status' hstatus' => ?_⟩
    rw [hstatus, Option.some.injEq] at hstatus'
    rwa [← hstatus']
  · rintro ⟨hlt, hfree⟩
    have hstatus := List.getElem?_eq_getElem hlt
    exact ⟨records[i], hstatus, hfree _ hstatus⟩

/-- The records other than `i` of two tables are the same, and so are the other ids. -/
lemma ledgerOf_eq_update {records' : List (Status τ)} {entry : Option (τ × τ)}
    (hi : ledgerOf records' i = entry) (hothers : ∀ j ≠ i, records'[j]? = records[j]?) :
    ledgerOf records' = Function.update (ledgerOf records) i entry := by
  funext j
  rcases eq_or_ne j i with rfl | hj
  · rw [Function.update_self, hi]
  · rw [Function.update_of_ne hj, ledgerOf, ledgerOf, hothers j hj]

/-- The listing of a table, from its first record on. -/
lemma listing_cons (name : τ → ν) (status : Status τ) (rest : List (Status τ)) (k : ℕ) :
    ((List.range (status :: rest).length).filterMap fun i =>
        (ledgerOf (status :: rest) i).map (entryLine name (k + i))) =
      (if status.busy then [status.line name k] else []) ++
        (List.range rest.length).filterMap fun i =>
          (ledgerOf rest i).map (entryLine name (k + 1 + i)) := by
  have hrest : ∀ i, (ledgerOf (status :: rest) (i + 1)).map (entryLine name (k + (i + 1))) =
      (ledgerOf rest i).map (entryLine name (k + 1 + i)) := by
    intro i
    have hadd : k + (i + 1) = k + 1 + i := by omega
    rw [hadd]
    rfl
  have hfirst : (ledgerOf (status :: rest) 0).map (entryLine name (k + 0)) =
      if status.busy then some (status.line name k) else none := by
    change status.terminals.map (entryLine name k) = _
    unfold Status.terminals
    split
    · rfl
    · rfl
  rw [List.length_cons, List.range_succ_eq_map, List.filterMap_cons, List.filterMap_map, hfirst]
  cases hbusy : status.busy with
  | true => simp [hrest]
  | false => simp [hrest]

end Tables

/-! ## Printing -/

section Printing

variable {driver : Driver τ} {b : Board τ}

variable (driver) in
/-- The loop of `print_connections` prints the busy records of the rest of the table. -/
lemma yields_print (name : τ → ν) (rest : List (Status τ)) {b : Board τ} (k : ℕ)
    (status : Status τ) (lines : List (Line ν)) (hrest : b.records.drop b.position = rest) :
    ∃ position, (Program.iterate (printRound driver name) ((k : ℤ), status, lines)).Yields b
      (lines ++ (List.range rest.length).filterMap fun i =>
        (ledgerOf rest i).map (entryLine name (k + i)))
      { b with position := position } := by
  induction rest generalizing b k status lines with
  | nil =>
    have hread := yields_read_of_end driver (getElem?_of_drop_nil hrest) status
    refine ⟨b.position, Program.Yields.iterate_last ?_⟩
    unfold printRound
    refine hread.bind ?_
    simp [driver.atEnd_ne]
  | cons record rest ih =>
    have hread := yields_read_of_getElem? driver (getElem?_of_drop_cons hrest) status
    have hround : (printRound driver name ((k : ℤ), status, lines)).Yields b
        (.inl (((k + 1 : ℕ) : ℤ), record,
          lines ++ if record.busy then [record.line name k] else []))
        { b with position := b.position + 1 } := by
      unfold printRound
      refine hread.bind ?_
      cases hbusy : record.busy with
      | true => simp [hbusy]
      | false => simp [hbusy]
    obtain ⟨position, hy⟩ := ih (b := { b with position := b.position + 1 }) (k + 1) record
      (lines ++ if record.busy then [record.line name k] else []) (drop_succ_of_drop_cons hrest)
    rw [List.append_assoc, ← listing_cons] at hy
    exact ⟨position, hround.iterate_next hy⟩

/-- `print_connections` prints the listing of the table and changes no record. -/
lemma yields_printConnections (driver : Driver τ) (name : τ → ν) (uninitialized : Status τ)
    (b : Board τ) : ∃ position, (printConnections driver name uninitialized).Yields b
      (listing name b.records.length (ledgerOf b.records)) { b with position := position } := by
  obtain ⟨position, hy⟩ := yields_print driver name b.records
    (b := { b with position := 0 }) 0 uninitialized [] List.drop_zero
  refine ⟨position, ?_⟩
  unfold printConnections
  refine (yields_seekStart b).bind ?_
  rw [if_neg (lt_irrefl 0)]
  simpa [listing] using hy

/-- The listing has a line for every busy record. -/
lemma length_listing (name : τ → ν) (records : List (Status τ)) :
    (listing name records.length (ledgerOf records)).length = records.countP Status.busy := by
  have hgeneral : ∀ k, ((List.range records.length).filterMap fun i =>
      (ledgerOf records i).map (entryLine name (k + i))).length = records.countP Status.busy := by
    induction records with
    | nil => simp
    | cons status rest ih =>
      intro k
      rw [listing_cons, List.length_append, ih, List.countP_cons]
      cases hbusy : status.busy with
      | true => simp [Nat.add_comm]
      | false => simp
  simpa [listing] using hgeneral 0

end Printing

/-! ## Runs -/

section Runs

variable {driver : Driver τ} {b b' : Board τ}

/-- A create operation enters its terminals. -/
lemma Creates.enters {input output : τ} {r : ℤ} (h : Creates driver input output b r b') :
    Enters b.records.length input output (ledgerOf b.records) r (ledgerOf b'.records) := by
  rcases lt_or_ge r 0 with hfailed | hmade
  · exact Or.inl ⟨hfailed, congrArg ledgerOf (h.failed hfailed)⟩
  · obtain ⟨i, rfl, hleast, ⟨status, hstatus, hbusy, hin, hout⟩, hothers⟩ := h.created hmade
    obtain ⟨hlt, hfree⟩ := mem_freeIndices_iff.mp hleast.1
    refine Or.inr ⟨i, hlt, rfl, hfree, fun j hj hnone => ?_, ledgerOf_eq_update ?_ hothers⟩
    · exact absurd (hleast.2 (mem_freeIndices_iff.mpr ⟨hj.trans hlt, hnone⟩)) (not_le.mpr hj)
    · simp [ledgerOf, hstatus, Status.terminals, hbusy, hin, hout]

/-- A destroy operation removes its id. -/
lemma Destroys.removes {id : BitVec 16} {r : ℤ} (h : Destroys id b r b') :
    Removes id (ledgerOf b.records) r (ledgerOf b'.records) := by
  rcases lt_or_ge r 0 with hfailed | hmade
  · exact Or.inl ⟨hfailed, congrArg ledgerOf (h.failed hfailed)⟩
  · exact Or.inr ⟨hmade, ledgerOf_eq_update (ledgerOf_eq_none_iff.mpr (h.freed hmade)) h.others⟩

/-- A command does to the ledger of the table what it does to a ledger. -/
lemma Command.Meets.notes {command : Command τ} {r : ℤ} (h : command.Meets driver b r b') :
    command.Notes b.records.length (ledgerOf b.records) r (ledgerOf b'.records) := by
  cases command with
  | createPersistent uninitialized input output nbyte oFlags => exact Creates.enters h
  | createFixedSize uninitialized input output nbyte => exact Creates.enters h
  | destroy uninitialized id => exact Destroys.removes h

/-- A table of `n` records with the ledger. -/
def Keeps (n : ℕ) (m : Ledger τ) (b : Board τ) : Prop :=
  ledgerOf b.records = m ∧ b.records.length = n

/-- A command on a table with a ledger ends in a table with a ledger it may lead to. -/
lemma Command.total_notes (driver : Driver τ) {n : ℕ} (hn : n ≤ 65535) (command : Command τ)
    (m : Ledger τ) : Program.Total (Keeps n m) (command.program driver)
      (fun r b => ∃ m', command.Notes n m r m' ∧ Keeps n m' b) := by
  rintro b ⟨rfl, rfl⟩
  obtain ⟨r, b', hy, hmeets, hkept⟩ := command.meets driver hn
  exact ⟨r, b', hy, _, hmeets.notes, rfl, hkept⟩

end Runs

/-- The switchboard as a ledger.  From any table of at most `65535` records every sequence of create
and destroy commands returns what the ledger may return, whichever of its requests fail.
Afterwards `print_connections` prints exactly the entries of the ledger, in the order of their
ids, and `get_active_connection_count` returns the number of the lines. -/
theorem listing_of_run (driver : Driver τ) (name : τ → ν) (b : Board τ)
    (hlength : b.records.length ≤ 65535) (commands : List (Command τ)) :
    ∃ results b' m, (Program.inTurn (Command.program driver) commands).Yields b results b' ∧
      Answers (Command.Notes b.records.length) (ledgerOf b.records) commands results m ∧
      ∀ uninitialized, ∃ b₁ b₂,
        (printConnections driver name uninitialized).Yields b'
          (listing name b.records.length m) b₁ ∧
        (getActiveConnectionCount driver uninitialized).Yields b'
          (listing name b.records.length m).length b₂ := by
  obtain ⟨results, b', hy, m, hanswers, rfl, hkept⟩ := Program.Total.inTurn
    (Keeps b.records.length) (fun command m _ => Command.total_notes driver hlength command m)
    (fun _ _ => trivial) (ledgerOf b.records) b ⟨rfl, rfl⟩
  refine ⟨results, b', _, hy, hanswers, fun uninitialized => ?_⟩
  obtain ⟨p, hprint⟩ := yields_printConnections driver name uninitialized b'
  obtain ⟨q, hcount⟩ := yields_getActiveConnectionCount driver uninitialized b'
  rw [← length_listing name b'.records] at hcount
  rw [hkept] at hprint hcount
  exact ⟨_, _, hprint, hcount⟩

/-- A table with a hole, in which a connection is created and another one is destroyed. -/
theorem listing_of_run_with_hole :
    ∃ results b' m, (Program.inTurn (Command.program refusesSecond)
        [.createPersistent ⟨7#32, true, true⟩ true false 16#32 0#32,
          .createFixedSize ⟨0#32, true, true⟩ false true 16#32,
          .destroy ⟨9#16, 1#32, true, true, 0#32⟩ 0#16]).Yields
            ⟨[⟨5#32, false, true⟩, ⟨0#32, false, false⟩, ⟨1#32, true, true⟩], 2, 0⟩ results b' ∧
      Answers (Command.Notes 3)
        (ledgerOf [⟨5#32, false, true⟩, ⟨0#32, false, false⟩, ⟨1#32, true, true⟩])
        [.createPersistent ⟨7#32, true, true⟩ true false 16#32 0#32,
          .createFixedSize ⟨0#32, true, true⟩ false true 16#32,
          .destroy ⟨9#16, 1#32, true, true, 0#32⟩ 0#16] results m ∧
      ∀ uninitialized, ∃ b₁ b₂,
        (printConnections refusesSecond id uninitialized).Yields b' (listing id 3 m) b₁ ∧
        (getActiveConnectionCount refusesSecond uninitialized).Yields b'
          (listing id 3 m).length b₂ :=
  listing_of_run refusesSecond id
    ⟨[⟨5#32, false, true⟩, ⟨0#32, false, false⟩, ⟨1#32, true, true⟩], 2, 0⟩ (by decide) _

end HalAPI.Switchboard
