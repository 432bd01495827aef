import JobControl.Text.Utf8
/-!
# Raw text

What the system has for names, paths and values is bytes, most often of a text and in UTF-8, but
not always.  A text is raw text at once.  Raw text is shown as a text with replacement characters
for what is not UTF-8, so that showing it may lose what it was.
-/

namespace JobControl

/-- Bytes that need not be UTF-8. -/
structure RawText where
  bytes : List UInt8
  deriving DecidableEq, Repr

namespace RawText

def ofText (text : String) : RawText :=
  ⟨text.toList.flatMap String.utf8EncodeChar⟩

instance : Coe String RawText where
  coe := ofText

/-- The text that is shown for it. -/
def shown (raw : RawText) : String :=
  String.ofList (Text.readLossyFrom none raw.bytes)

/-- The text that it is, if it is one. -/
def text? (raw : RawText) : Option String :=
  if ofText raw.shown = raw then some raw.shown else none

def isEmpty (raw : RawText) : Bool :=
  raw.bytes.isEmpty

def size (raw : RawText) : Nat :=
  raw.bytes.length

instance : Append RawText where
  append first second := ⟨first.bytes ++ second.bytes⟩

/-- Cuts bytes at each separator. -/
def cutBytes (separates : UInt8 → Bool) : List UInt8 → List (List UInt8)
  | [] => [[]]
  | c :: rest =>
      if separates c then [] :: cutBytes separates rest
      else
        match cutBytes separates rest with
        | [] => [[c]]
        | piece :: pieces => (c :: piece) :: pieces

def cutAt (raw : RawText) (separates : UInt8 → Bool) : List RawText :=
  (cutBytes separates raw.bytes).map RawText.mk

def startsWith (raw start : RawText) : Bool :=
  start.bytes.isPrefixOf raw.bytes

def endsWith (raw last : RawText) : Bool :=
  last.bytes.isSuffixOf raw.bytes

end RawText

end JobControl
