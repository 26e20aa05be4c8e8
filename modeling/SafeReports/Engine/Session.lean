import SafeReports.Engine.Complaint
import SafeReports.Json.Basic

/-!
# Sessions with a database engine

An engine is known by its replies: each cursor taken from a session has one, and
when they run out the reply is empty. A session records every call before its
outcome, with the number of the cursor it was made on.
-/

namespace SafeReports.Engine

inductive ErrorKind
  | operational
  | integrity
  /-- An error of the interface to the engine. -/
  | interface
  | database
  /-- An error of the reader of whole tables, not of the engine. -/
  | tableReader
  | runtime
  | value
  deriving DecidableEq, Repr

namespace ErrorKind

/-- Whether the engine itself raises errors of this kind. -/
def isEngine : ErrorKind → Bool
  | operational | integrity | interface | database => true
  | tableReader | runtime | value => false

/-- Whether users of reports see such an error as a failed execution. -/
def isRefusal (k : ErrorKind) : Bool := k.isEngine || k == tableReader

end ErrorKind

structure Error where
  kind : ErrorKind
  complaint : Complaint
  deriving DecidableEq, Repr

/-- A row as the engine returns it. -/
abbrev Tuple := List Json

/-- What one cursor does. -/
structure Reply where
  /-- The column names; `none` for a result without a description. -/
  columns : Option (List String) := some []
  rows : List Tuple := []
  cursorError : Option Error := none
  executeError : Option Error := none
  fetchError : Option Error := none
  /-- The number of the fetch that fails, counted from zero. -/
  fetchErrorAt : Nat := 0
  closeError : Option Error := none
  rollbackError : Option Error := none

inductive Call
  | cursor
  | execute (sql : String)
  | fetchAll
  | fetchMany (count : Int)
  | close
  | rollback
  deriving DecidableEq, Repr

structure Session where
  /-- Replies of the cursors still to be taken. -/
  script : List Reply
  /-- How many cursors have been taken. -/
  taken : Nat
  /-- The reply of the last cursor taken. -/
  last : Reply
  trace : List (Nat × Call)

structure Cursor where
  number : Nat
  reply : Reply
  unread : List Tuple
  fetches : Nat

namespace Session

def ofScript (script : List Reply) : Session := ⟨script, 0, {}, []⟩

def record (s : Session) (number : Nat) (call : Call) : Session :=
  { s with trace := s.trace ++ [(number, call)] }

/-- Takes the next cursor. -/
def cursor (s : Session) : Except Error Cursor × Session :=
  let reply := s.script.headD {}
  let s' : Session := ⟨s.script.tail, s.taken + 1, reply, s.trace ++ [(s.taken, .cursor)]⟩
  match reply.cursorError with
  | some e => (.error e, s')
  | none => (.ok ⟨s.taken, reply, reply.rows, 0⟩, s')

/-- Rolls back what the last cursor did. -/
def rollback (s : Session) : Except Error Unit × Session :=
  let s' := s.record (s.taken - 1) .rollback
  match s.last.rollbackError with
  | some e => (.error e, s')
  | none => (.ok (), s')

end Session

namespace Cursor

def outcome : Option Error → Except Error Unit
  | some e => .error e
  | none => .ok ()

def execute (c : Cursor) (sql : String) (s : Session) : Except Error Unit × Session :=
  (outcome c.reply.executeError, s.record c.number (.execute sql))

def close (c : Cursor) (s : Session) : Except Error Unit × Session :=
  (outcome c.reply.closeError, s.record c.number .close)

/-- The error of the next fetch, if that is the one to fail. -/
def fetchFault? (c : Cursor) : Option Error :=
  if c.fetches = c.reply.fetchErrorAt then c.reply.fetchError else none

def fetchAll (c : Cursor) (s : Session) : Except Error (List Tuple) × Session :=
  let s' := s.record c.number .fetchAll
  match c.fetchFault? with
  | some e => (.error e, s')
  | none => (.ok c.unread, s')

/-- The next rows, `count` at most, and the cursor after them. -/
def fetchMany (c : Cursor) (count : Int) (s : Session) :
    Except Error (List Tuple × Cursor) × Session :=
  let s' := s.record c.number (.fetchMany count)
  match c.fetchFault? with
  | some e => (.error e, s')
  | none =>
    (.ok (c.unread.take count.toNat,
      { c with unread := c.unread.drop count.toNat, fetches := c.fetches + 1 }), s')

end Cursor

end SafeReports.Engine
