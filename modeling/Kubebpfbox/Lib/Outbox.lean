import Mathlib.Data.List.Induction

/-!
# Outboxes

Values are put into a buffer one by one, and now and then all of it is sent.  What was sent is
taken out; a send that fails leaves everything where it is, to be sent again with what comes later.

`run_delivers` is the invariant: what was sent and what is left make up what was put in, each value
once and in order.  `run_of_no_send` is a run in which no send succeeds.
-/

namespace Outboxes

variable {α : Type*}

/-- What was sent, batch by batch, and what is left to send. -/
structure Outbox (α : Type*) where
  delivered : List (List α) := []
  pending : List α := []

/-- Something is put in, or everything is sent, with or without success. -/
inductive Op (α : Type*) where
  | put (a : α)
  | send (ok : Bool)

/-- The value that is put in, if one is. -/
def Op.put? : Op α → Option α
  | put a => some a
  | send _ => none

/-- The values that are put in. -/
def puts (ops : List (Op α)) : List α := ops.filterMap Op.put?

theorem puts_concat_put (ops : List (Op α)) (a : α) : puts (ops ++ [.put a]) = puts ops ++ [a] := by
  rw [puts, List.filterMap_append]
  rfl

theorem puts_concat_send (ops : List (Op α)) (ok : Bool) : puts (ops ++ [.send ok]) = puts ops := by
  rw [puts, List.filterMap_append]
  exact List.append_nil _

namespace Outbox

/-- One operation. -/
def step (b : Outbox α) : Op α → Outbox α
  | .put a => { b with pending := b.pending ++ [a] }
  | .send true => { delivered := b.delivered ++ [b.pending], pending := [] }
  | .send false => b

/-- A run of operations. -/
def run (b : Outbox α) (ops : List (Op α)) : Outbox α := ops.foldl step b

theorem run_concat (b : Outbox α) (ops : List (Op α)) (op : Op α) :
    b.run (ops ++ [op]) = (b.run ops).step op := by
  rw [run, List.foldl_append]
  rfl

/-- Everything that ever came in, sent or not. -/
def contents (b : Outbox α) : List α := b.delivered.flatten ++ b.pending

theorem contents_put (b : Outbox α) (a : α) : (b.step (.put a)).contents = b.contents ++ [a] :=
  (List.append_assoc ..).symm

theorem contents_send (b : Outbox α) (ok : Bool) : (b.step (.send ok)).contents = b.contents := by
  cases ok with
  | false => rfl
  | true =>
    show (b.delivered ++ [b.pending]).flatten ++ [] = b.delivered.flatten ++ b.pending
    rw [List.append_nil, List.flatten_append, List.flatten_singleton]

/-- **Nothing is lost, doubled or reordered.** -/
theorem run_delivers (b : Outbox α) (ops : List (Op α)) :
    (b.run ops).contents = b.contents ++ puts ops := by
  induction ops using List.reverseRecOn with
  | nil => exact (List.append_nil _).symm
  | append_singleton ops op ih =>
    rw [run_concat]
    cases op with
    | put a => rw [contents_put, ih, puts_concat_put, List.append_assoc]
    | send ok => rw [contents_send, ih, puts_concat_send]

/-- While no send succeeds, the buffer grows by what is put in. -/
theorem run_of_no_send (b : Outbox α) {ops : List (Op α)} (h : Op.send true ∉ ops) :
    b.run ops = { b with pending := b.pending ++ puts ops } := by
  induction ops using List.reverseRecOn with
  | nil =>
    show b = _
    rw [puts, List.filterMap_nil, List.append_nil]
  | append_singleton ops op ih =>
    rw [List.mem_append, not_or] at h
    rw [run_concat, ih h.1]
    cases op with
    | put a => rw [puts_concat_put, ← List.append_assoc, step]
    | send ok =>
      cases ok with
      | true => exact absurd (List.mem_singleton_self _) h.2
      | false => rw [puts_concat_send, step]

end Outbox

end Outboxes
