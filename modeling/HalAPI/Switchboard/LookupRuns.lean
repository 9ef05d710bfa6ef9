import HalAPI.Switchboard.Listing
import HalAPI.Switchboard.Lookup

/-!
# Lookups among the commands

A client creates and destroys connections and looks them up in between, by id or by refreshing a
connection it has.  It may also destroy a connection it has, which makes that connection invalid.

`lookups_answer_ledger` says that in every such sequence of calls each lookup answers from the
ledger: a lookup whose read is made yields a connection with the terminals that the ledger has for
its id at that time.
-/

namespace HalAPI.Switchboard

open Foundation

variable {τ κ : Type} {driver : Driver τ}

/-! ## Calls -/

/-- A call of a client: a command, one of the two overloads of `get_connection`, or the overload of
`destroy_connection` that takes a connection. -/
inductive Access (τ κ : Type) where
  | command (command : Command τ)
  | get (id : BitVec 16)
  | refresh (connection : κ)
  | destroyHeld (uninitialized : Attributes τ) (connection : κ)

/-- What a call yields: the status it returns and the connection it returns or refreshes, if it has
them. -/
abbrev Reply (κ : Type) : Type := Option ℤ × Option κ

section Code

variable (layout : Layout driver κ)

/-- `Switchboard::destroy_connection(SwitchboardConnection &connection)`: the return value and the
connection afterwards -/
def destroyHeldConnection (uninitialized : Attributes τ) (connection : κ) :
    Program (Board τ) (ℤ × κ) := do
  let id := layout.id connection
  let ret ← destroyConnection driver uninitialized id
  pure (ret, layout.invalid)

/-- The code of a call. -/
def Access.program : Access τ κ → Program (Board τ) (Reply κ)
  | .command c => do
    let ret ← c.program driver
    pure (some ret, none)
  | .get id => do
    let connection ← getConnection layout id
    pure (none, some connection)
  | .refresh connection => do
    let (ret, refreshed) ← refreshConnection layout connection
    pure (some ret, some refreshed)
  | .destroyHeld uninitialized connection => do
    let (ret, invalid) ← destroyHeldConnection layout uninitialized connection
    pure (some ret, some invalid)

end Code

/-! ## The ledger -/

/-- What a read for an id finds in a ledger with ids below `n`, if the connection is `unread`
before: the invalid connection if it fails, a record with the terminals of the id, and nothing
after the last record. -/
def Layout.Finds (layout : Layout driver κ) (n : ℕ) (m : Ledger τ) (id : BitVec 16)
    (unread connection : κ) : Prop :=
  if layout.fault (id.toNat * layout.size) < 0 then connection = layout.invalid
  else if id.toNat < n then
    ∃ status : Status τ, status.terminals = m id.toNat ∧
      connection = layout.ofRecord id.toNat status
  else connection = if driver.atEnd < 0 then layout.invalid else unread

/-- What a call does to a ledger with ids below `n`.  Lookups do not change it, and the status of a
refresh is always `-1`. -/
def Access.Notes (layout : Layout driver κ) (n : ℕ) (m : Ledger τ) (access : Access τ κ)
    (reply : Reply κ) (m' : Ledger τ) : Prop :=
  match access with
  | .command c => ∃ ret, reply = (some ret, none) ∧ c.Notes n m ret m'
  | .get id => m' = m ∧
    ∃ connection, reply = (none, some connection) ∧ layout.Finds n m id layout.invalid connection
  | .refresh connection => m' = m ∧
    ∃ refreshed, reply = (some (-1), some refreshed) ∧
      if layout.id connection = layout.invalidId then refreshed = connection
      else layout.Finds n m (layout.id connection) connection refreshed
  | .destroyHeld _ connection =>
    ∃ ret, reply = (some ret, some layout.invalid) ∧ Removes (layout.id connection) m ret m'

/-! ## Runs -/

section Runs

variable (layout : Layout driver κ)

/-- What a read found is what it finds in the ledger of the table. -/
lemma finds_found (b : Board τ) (id : BitVec 16) (unread : κ) :
    layout.Finds b.records.length (ledgerOf b.records) id unread (layout.found b id unread) := by
  have hoffset : id.toNat * layout.size / layout.size = id.toNat :=
    Nat.mul_div_cancel _ layout.size_pos
  unfold Layout.Finds
  by_cases hfault : layout.fault (id.toNat * layout.size) < 0
  · rw [if_pos hfault, Layout.found, Layout.located, if_pos hfault, if_pos hfault]
  · rw [if_neg hfault]
    by_cases hlt : id.toNat < b.records.length
    · have hrecord := List.getElem?_eq_getElem hlt
      rw [if_pos hlt]
      refine ⟨b.records[id.toNat], ?_, found_of_getElem? hrecord (not_lt.mp hfault) unread⟩
      rw [ledgerOf, hrecord, Option.bind_some]
    · have hnone := List.getElem?_eq_none (not_lt.mp hlt)
      rw [if_neg hlt, Layout.found, Layout.located, if_neg hfault, hoffset, hnone]
      rfl

/-- A lookup by id answers from the ledger. -/
lemma total_get (n : ℕ) (m : Ledger τ) (id : BitVec 16) :
    Program.Total (Keeps n m) ((Access.get id : Access τ κ).program layout)
      (fun reply b => ∃ m', (Access.get id).Notes layout n m reply m' ∧ Keeps n m' b) := by
  rintro b ⟨rfl, rfl⟩
  have hget := yields_getConnection layout b id
  exact ⟨_, _, hget.bind (Program.Yields.pure _ _), _, ⟨rfl, _, rfl, finds_found layout b id _⟩,
    rfl, rfl⟩

/-- A refresh answers from the ledger. -/
lemma total_refresh (n : ℕ) (m : Ledger τ) (connection : κ) :
    Program.Total (Keeps n m) ((Access.refresh connection : Access τ κ).program layout)
      (fun reply b => ∃ m', (Access.refresh connection).Notes layout n m reply m' ∧
        Keeps n m' b) := by
  rintro b ⟨rfl, rfl⟩
  by_cases hinvalid : layout.id connection = layout.invalidId
  · have hrefresh := yields_refreshConnection_of_invalid layout b hinvalid
    refine ⟨_, _, hrefresh.bind (Program.Yields.pure _ _), _, ⟨rfl, _, rfl, ?_⟩, rfl, rfl⟩
    rw [if_pos hinvalid]
  · have hrefresh := yields_refreshConnection layout b hinvalid
    refine ⟨_, _, hrefresh.bind (Program.Yields.pure _ _), _, ⟨rfl, _, rfl, ?_⟩, rfl, rfl⟩
    rw [if_neg hinvalid]
    exact finds_found layout b (layout.id connection) connection

/-- The destruction of a connection removes its id, and makes it invalid. -/
lemma total_destroyHeld {n : ℕ} (hn : n ≤ 65535) (m : Ledger τ) (uninitialized : Attributes τ)
    (connection : κ) :
    Program.Total (Keeps n m) ((Access.destroyHeld uninitialized connection).program layout)
      (fun reply b => ∃ m', (Access.destroyHeld uninitialized connection).Notes layout n m reply m' ∧
        Keeps n m' b) := by
  intro b hb
  obtain ⟨ret, b', hy, m', hremoves, hkeeps⟩ :=
    Command.total_notes driver hn (.destroy uninitialized (layout.id connection)) m b hb
  have hdestroy : (destroyHeldConnection layout uninitialized connection).Yields b (ret, layout.invalid) b' :=
    Program.Yields.bind hy (Program.Yields.pure _ _)
  exact ⟨_, b', hdestroy.bind (Program.Yields.pure _ _), m', ⟨ret, rfl, hremoves⟩, hkeeps⟩

/-- A call on a table with a ledger answers as the ledger does. -/
lemma Access.total_notes {n : ℕ} (hn : n ≤ 65535) (access : Access τ κ) (m : Ledger τ) :
    Program.Total (Keeps n m) (access.program layout)
      (fun reply b => ∃ m', access.Notes layout n m reply m' ∧ Keeps n m' b) := by
  cases access with
  | command command =>
    intro b hb
    obtain ⟨ret, b', hy, m', hnotes, hkeeps⟩ := Command.total_notes driver hn command m b hb
    exact ⟨_, b', hy.bind (Program.Yields.pure _ _), m', ⟨ret, rfl, hnotes⟩, hkeeps⟩
  | get id => exact total_get layout n m id
  | refresh connection => exact total_refresh layout n m connection
  | destroyHeld uninitialized connection => exact total_destroyHeld layout hn m uninitialized connection

end Runs

/-- Lookups among the commands.  From any table of at most `65535` records every sequence of create
and destroy operations and of lookups is answered as the ledger may answer it, whichever of the
requests and reads fail: the operations enter and remove ids, a lookup yields the terminals that
the ledger has for its id at that time, and the table ends with the ledger. -/
theorem lookups_answer_ledger (layout : Layout driver κ) (b : Board τ)
    (hlength : b.records.length ≤ 65535) (calls : List (Access τ κ)) :
    ∃ replies b' m, (Program.inTurn (Access.program layout) calls).Yields b replies b' ∧
      Answers (Access.Notes layout b.records.length) (ledgerOf b.records) calls replies m ∧
      ledgerOf b'.records = m ∧ b'.records.length = b.records.length := by
  obtain ⟨replies, b', hy, m, hanswers, hledger, hkept⟩ := Program.Total.inTurn
    (Keeps b.records.length) (fun access m _ => Access.total_notes layout hlength access m)
    (fun _ _ => trivial) (ledgerOf b.records) b ⟨rfl, rfl⟩
  exact ⟨replies, b', m, hy, hanswers, hledger, hkept⟩

/-- A connection is created in a hole and looked up, one that is destroyed is refreshed, and the first
is destroyed by its connection. -/
theorem lookups_answer_ledger_with_hole :
    ∃ replies b' m, (Program.inTurn (Access.program plainLayout)
        [.command (.createFixedSize ⟨0#32, true, true⟩ false true 16#32), .get 1#16,
          .command (.destroy ⟨9#16, 1#32, true, true, 0#32⟩ 0#16),
          .refresh (0#16, ⟨5#32, false, true⟩), .get 7#16,
          .destroyHeld ⟨9#16, 1#32, true, true, 0#32⟩ (1#16, ⟨1#32, false, true⟩)]).Yields
            ⟨[⟨5#32, false, true⟩, ⟨0#32, false, false⟩, ⟨1#32, true, true⟩], 2, 0⟩ replies b' ∧
      Answers (Access.Notes plainLayout 3)
        (ledgerOf [⟨5#32, false, true⟩, ⟨0#32, false, false⟩, ⟨1#32, true, true⟩])
        [.command (.createFixedSize ⟨0#32, true, true⟩ false true 16#32), .get 1#16,
          .command (.destroy ⟨9#16, 1#32, true, true, 0#32⟩ 0#16),
          .refresh (0#16, ⟨5#32, false, true⟩), .get 7#16,
          .destroyHeld ⟨9#16, 1#32, true, true, 0#32⟩ (1#16, ⟨1#32, false, true⟩)] replies m ∧
      ledgerOf b'.records = m ∧ b'.records.length = 3 :=
  lookups_answer_ledger plainLayout
    ⟨[⟨5#32, false, true⟩, ⟨0#32, false, false⟩, ⟨1#32, true, true⟩], 2, 0⟩ (by decide) _

end HalAPI.Switchboard
