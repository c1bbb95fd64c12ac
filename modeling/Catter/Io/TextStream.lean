import Catter.Io.Numbers

/-! `TextFileStream` over an open file: the encoding of strings, and the operations that write,
append and read characters or the whole file. -/

namespace Catter.Io

open Text Library.Lines

/-! Strings as sequences of octets. -/

def isHighSurrogate (unit : UInt16) : Bool := 0xD800 ≤ unit && unit ≤ 0xDBFF

def isLowSurrogate (unit : UInt16) : Bool := 0xDC00 ≤ unit && unit ≤ 0xDFFF

-- `[...data]`: the characters, a surrogate pair being one.
def spread : JsString → List JsString
  | [] => []
  | [unit] => [[unit]]
  | unit :: next :: rest =>
    if isHighSurrogate unit && isLowSurrogate next then [unit, next] :: spread rest
    else [unit] :: spread (next :: rest)

-- An element of a `Uint8Array` is a number modulo 2 ^ 8.
def charCode (character : JsString) : UInt8 := (character.headD 0).toUInt8

/-- What a call may be given: the engine refuses more arguments than it has room for. -/
structure Engine extends QuickJs where
  maxArguments : ℕ
  tooMany : Str

namespace AsciiEnDecStreamImpl

def encode (data : JsString) : Uint8Array where
  buffer := (spread data).map charCode
  byteOffset := 0
  length := ((spread data).map charCode).length
  inside := by rw [Nat.zero_add]

def decode (engine : Engine) (raw : Uint8Array) : Js JsString :=
  if engine.maxArguments < raw.length then Js.throw engine.tooMany
    else pure (raw.octets.map fromCharCode)

def write (raw : ℤ) (data : JsString) : Js Unit := FileStream.write raw (encode data)

def read (engine : Engine) (raw chars : ℤ) : Js JsString := do
  let bytes ← FileStream.read raw chars
  decode engine bytes

end AsciiEnDecStreamImpl

def FileStream.readEntireFile (js : QuickJs) (fd : ℤ) : Js Uint8Array := do
  let size ← fileSize js fd
  seekRead fd 0 0
  let n ← argument js size
  read fd n

namespace TextFileStream

def write (fd : ℤ) (data : JsString) : Js Unit := AsciiEnDecStreamImpl.write fd data

def read (engine : Engine) (fd chars : ℤ) : Js JsString := AsciiEnDecStreamImpl.read engine fd chars

def append (fd : ℤ) (data : JsString) : Js Unit := do
  FileStream.seekWrite fd 0 2
  write fd data

def readEntireFile (engine : Engine) (fd : ℤ) : Js JsString := do
  let raw ← FileStream.readEntireFile engine.toQuickJs fd
  AsciiEnDecStreamImpl.decode engine raw

end TextFileStream

end Catter.Io
