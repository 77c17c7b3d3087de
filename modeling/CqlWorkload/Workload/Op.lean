import CqlWorkload.Config.Basic
import CqlWorkload.Value.Text

/-!
# Operations and blocks

An operation has a statement, a timeout and, if it reads or writes rows, a
ratio.  A block has operations by name and, when all of them share a timeout,
that timeout for the whole block.

**Shared timeouts.** Timeouts are shared when they are equal as numbers.  A
timeout that is `nan` is shared among the operations of one kind only.
-/

namespace CqlWorkload

inductive Form
  | simple
  | prepared
  deriving DecidableEq

def Form.text : Form → String
  | .simple => "simple"
  | .prepared => "prepared"

structure Op where
  form : Form
  statement : String
  /-- The kind of operation that the timeout was configured for. -/
  kind : TimeoutKind
  /-- The timeout, unless the block has it. -/
  timeout : Option Double
  ratio : Option Int
  deriving DecidableEq

namespace Op

def toValue (op : Op) : Value :=
  .ofEntries ([(op.form.text, .text op.statement)] ++
    (op.timeout.elim [] fun x => [("timeout", .float x)]) ++
    (op.ratio.elim [] fun n => [("ratio", .int n)]))

def sameTimeout (a b : Op) : Bool :=
  match a.timeout, b.timeout with
  | some x, some y => x.same y || (x.isNaN && y.isNaN && a.kind == b.kind)
  | none, none => true
  | _, _ => false

def withoutTimeout (op : Op) : Op := { op with timeout := none }

end Op

/-- The first of some items, if all the others are the same as it. -/
def common? {α : Type} (same : α → α → Bool) : List α → Option α
  | [] => none
  | a :: rest => if rest.all (same a) then some a else none

structure Block where
  timeout : Option Double
  ops : Entries Op
  deriving DecidableEq

namespace Block

/-- The block of some operations, with a timeout that they all share taken out. -/
def ofOps (ops : Entries Op) : Block :=
  match (common? Op.sameTimeout (ops.map (·.2))).bind (·.timeout) with
  | some x => ⟨some x, ops.map fun entry => (entry.1, entry.2.withoutTimeout)⟩
  | none => ⟨none, ops⟩

/-- The operations of a block as a table. -/
def opsValue (ops : Entries Op) : Value :=
  .ofEntries (ops.map fun entry => (entry.1, entry.2.toValue))

def toValue (b : Block) : Value :=
  .ofEntries [("params", .ofEntries (b.timeout.elim [] fun x => [("timeout", .float x)])),
    ("ops", opsValue b.ops)]

end Block
end CqlWorkload
