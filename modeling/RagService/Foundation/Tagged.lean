import RagService.Foundation.Calls

/-!
# Commands that carry a tag

A program whose commands say who issues them, so that a machine may execute one command in
different ways.  A protocol of tagged commands is followed by the tagged program when the
program follows what the protocol says for its tag.
-/

namespace RagService
namespace Interleaving

variable {I : Interface} {Tag G α : Type}

def Interface.tagged (I : Interface) (Tag : Type) : Interface where
  Command := Tag × I.Command
  Result := fun c => I.Result c.2
  Error := I.Error

/-- Put a tag on every command of a program. -/
def Program.tag (t : Tag) : Program I α -> Program (I.tagged Tag) α
  | .ret a => .ret a
  | .raise e => .raise e
  | .call c k => .call (I := I.tagged Tag) (t, c) fun r => (k r).tag t

namespace Protocol

def untagged (T : Protocol (I.tagged Tag) G) (t : Tag) : Protocol I G where
  allowed := fun g c => T.allowed g (t, c)
  possible := fun c r => T.possible (t, c) r
  next := fun g c r => T.next g (t, c) r

theorem follows_tag {T : Protocol (I.tagged Tag) G} {t : Tag}
    {Q : G -> Except I.Error α -> Prop} {p : Program I α} {g : G}
    (h : (T.untagged t).Follows Q g p) : T.Follows Q g (p.tag t) := by
  induction p generalizing g with
  | ret a => exact h
  | raise e => exact h
  | call c k ih => exact ⟨h.1, fun r hr => ih r (h.2 r hr)⟩

end Protocol
end Interleaving
end RagService
