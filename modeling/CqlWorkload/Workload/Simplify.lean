import CqlWorkload.Failure
import CqlWorkload.Workload.Op

/-!
# Shared timeouts in any document

The rule that takes a timeout shared by all operations of a block out of them,
for a block given as a value.  Whatever else the block and its operations hold
stays as it is and where it is.
-/

namespace CqlWorkload.Simplify

/-- The timeout of an operation; an absent one counts as null. -/
def timeoutOf (op : List (Value × Value)) : Value := (Value.lookup op "timeout").getD .null

/-- The entries of an operation besides its timeout. -/
def withoutTimeout (op : List (Value × Value)) : List (Value × Value) :=
  op.filter fun entry => entry.1 != .text "timeout"

/-- Operations by name as mappings, or the first that is none or whose timeout
cannot be compared. -/
def opsOf : List (Value × Value) → Except Failure (List (Value × List (Value × Value)))
  | [] => .ok []
  | (name, .map op) :: rest =>
    if (timeoutOf op).isKey then ((name, op) :: ·) <$> opsOf rest
    else .error (.unfit (.notHashable (timeoutOf op).kindName))
  | (_, op) :: _ => .error (.noMember op.typeTitle "get")

/-- The entries of the parameters of a block. -/
def paramsOf (block : List (Value × Value)) : Except Failure (List (Value × Value)) :=
  match Value.lookup block "params" with
  | none => .ok []
  | some (.map params) => .ok params
  | some value => .error (.noItemAssignment value.typeTitle)

/-- The block with a shared timeout among its parameters. -/
def hoist (block : List (Value × Value)) (ops : List (Value × List (Value × Value)))
    (timeout : Value) : Except Failure Value := do
  let params ← paramsOf block
  let params := Value.putKey params (.text "timeout") timeout
  let ops := ops.map fun op => (op.1, Value.map (withoutTimeout op.2))
  return .map (Value.putKey (Value.putKey block (.text "params") (.map params))
    (.text "ops") (.map ops))

/-- Take a shared timeout out of the operations of a block. -/
def simplifyTimeouts (block : List (Value × Value)) : Except Failure Value :=
  match Value.lookup block "ops" with
  | none => .ok (.map block)
  | some (.map entries) => do
    let ops ← opsOf entries
    match common? Value.sameKey (ops.map fun op => timeoutOf op.2) with
    | none | some .null => return .map block
    | some timeout => hoist block ops timeout
  | some value => .error (.noMember value.typeTitle "items")

end CqlWorkload.Simplify
