import Catter.Library.CommandLine
import Catter.Text

/-! The splitting of a Windows command line into arguments, by the documented
rules of the MSVC runtime and of `CommandLineToArgvW`. -/

namespace Catter.Win

open Text Library

-- `char` and `wchar_t`, with their literals.
class CharT (α : Type) where
  ofOctet : UInt8 → α
  injective : Function.Injective ofOctet

instance charT : CharT UInt8 := ⟨fun c => c, Function.injective_id⟩

instance wcharT : CharT UInt16 :=
  ⟨UInt8.toUInt16, fun a b h => by simpa using congrArg UInt16.toUInt8 h⟩

def doubleQuote : UInt8 := 34
def backslash : UInt8 := 92
def space : UInt8 := 32
def tab : UInt8 := 9

variable {α : Type} [DecidableEq α] [CharT α]

def isBlank (c : α) : Bool := c == CharT.ofOctet space || c == CharT.ofOctet tab

lemma isBlank_ofOctet (o : UInt8) : isBlank (CharT.ofOctet o : α) = (o == space || o == tab) := by
  simp [isBlank, CharT.injective.eq_iff, Bool.beq_eq_decide_eq]

instance letters : CommandLine.Letters α where
  quote := CharT.ofOctet doubleQuote
  slash := CharT.ofOctet backslash
  isBlank := isBlank
  quote_ne_slash := CharT.injective.ne (by decide)
  isBlank_quote := isBlank_ofOctet doubleQuote
  isBlank_slash := isBlank_ofOctet backslash

/-- The arguments of a command line, which ends at its first zero. -/
def splitCommandLine (line : List α) : List (List α) :=
  let split := CommandLine.splitLine (line.takeWhile (· ≠ CharT.ofOctet 0))
  split.1 :: split.2

example : splitCommandLine (lit "a\\b \"c d\\\\\" e\\\"f \"g\"\"h\"") =
    [lit "a\\b", lit "c d\\", lit "e\"f", lit "g\"h"] := by decide

end Catter.Win
