import CodeBridge.Access
import CodeBridge.Emit.Texts
import CodeBridge.Workload.Basic
import CodeBridge.Workload.Schemas

/-! # Workloads of the writer -/

namespace CodeBridge.Workload

open Working (check)

/-- A short block for an even number, a longer one for an odd number. -/
def numberedBlock (i : Nat) : Writing Unit :=
  if i % 2 == 0 then do
    Writing.write (numbered "loop " i ++ " ")
    Writing.block (Writing.line "advance(cursor, one);")
  else do
    Writing.write (numbered "choose " i ++ " ")
    Writing.block do
      Writing.line (numbered "case " i ++ ":")
      Writing.indent
      Writing.line "open(stream, buffer);"
      Writing.line "copy(stream, buffer);"
      Writing.unindent
      Writing.line "default:"
      Writing.indent
      Writing.line "close(the_stream);"
      Writing.unindent

/-- The lengths of so many blocks with and without brackets, and a level that was set. -/
def blocks (size : Int) : Working Sample := do
  let all := Writing.each (indices size) numberedBlock *> Writing.result
  let braced ← check (Emit.outcome all Writer.braced)
  let bare ← check (Emit.outcome all Writer.bare)
  let level ← check (Emit.outcome (Writing.setLevel (.int 4) *> Writing.level) Writer.braced)
  return .list [lengthOf braced, lengthOf bare, .int level]

/-- The calls that reach a number, a double, a list and an array of an object. -/
def accessCalls : Except Fault (List Macro) := do
  let owner := Macro.text "owner"
  let items ← Access.listAttributeElements owner "items" (listOf (.primitive .int32)) (.text "sum += item_value")
  let cells ← Access.arrayAttributeElements owner "cells" (arrayOf (.primitive .double)) (.text "sum += item_value")
  return [Access.int64Attribute owner "count" (.text "sum = count"),
    Access.floatAttribute owner "ratio" (.text "size = ratio"), items, cells]

/-- The length of all calls, written so many times. -/
def accesses (size : Int) : Working Sample := do
  let calls ← check accessCalls
  let all := Writing.each (indices size) fun _ => Writing.each calls Macro.writeStatement
  return lengthOf (← check (Emit.outcome (all *> Writing.result) Writer.braced))

end CodeBridge.Workload
