import AzAppToolkit.Exchange.OpathBytes
import AzAppToolkit.Lib.Cuts

set_option autoImplicit false

/-! # The signing certificates of a metadata document

`parse_signing_certs` of `sso/metadata.rs` with its three scanners, on the byte offsets the source
computes with: each slice is partial, and each `while` runs on fuel. -/

namespace Metadata

open OpathBytes (Fault Checked orPanic)
open Slices

/-- `str::find`. -/
def find (needle s : Text) : Option Nat := (Text.breakOn needle s).map (fun parts => byteLength parts.1)

/-- `str::rfind`. -/
def rfind (needle : Text) : Text → Option Nat
  | [] => if needle.isPrefixOf [] then some 0 else none
  | c :: s =>
    match rfind needle s with
    | some i => some (c.utf8Size + i)
    | none => if needle.isPrefixOf (c :: s) then some 0 else none

/-- `str::strip_suffix` of one character. -/
def stripLast (c : Char) (s : Text) : Option Text :=
  if s.getLast? = some c then some s.dropLast else none

def endsWith (suffix s : Text) : Bool := suffix.isSuffixOf s

def closing : Text := "</".toList

/-- What ends a name. -/
def endsName (c : Char) : Bool := isWhitespace c || c == '>' || c == '/'

/-- What a prefix is made of. -/
def isPrefixChar (c : Char) : Bool := c != '>' && !isWhitespace c

/-- The walk back over an optional `prefix:` to the `<`. -/
def walkBack (before : Text) : Checked Bool :=
  match stripLast '<' before with
  | some stripped => pure (!endsWith closing stripped)
  | none =>
    match stripLast ':' before with
    | none => pure false
    | some colon =>
      match rfind ['<'] colon with
      | none => pure false
      | some lt => do
          let name ← orPanic (suffixAt colon (lt + 1))
          if name.all isPrefixChar then do
            let upTo ← orPanic (prefixAt colon (lt + 1))
            pure (!endsWith closing upTo && !name.isEmpty)
          else pure false

/-- An element name at an offset, up to its end. -/
def elementOpenAt (xml localName : Text) (offset : Nat) : Checked Bool := do
  let rest ← orPanic (suffixAt xml offset)
  if localName.isPrefixOf rest then do
    let after ← orPanic (suffixAt xml (offset + byteLength localName))
    if after.head?.any endsName then do
      let before ← orPanic (prefixAt xml offset)
      walkBack before
    else pure false
  else pure false

/-- A `</` or `</prefix:` before an offset. -/
def walkBackClose (before : Text) : Checked Bool :=
  if endsWith closing before then pure true
  else
    match stripLast ':' before with
    | none => pure false
    | some c =>
      match rfind closing c with
      | none => pure false
      | some lt => do
          let name ← orPanic (suffixAt c (lt + 2))
          pure (!name.isEmpty && name.all isPrefixChar)

def elementCloseAt (xml localName : Text) (offset : Nat) : Checked Bool := do
  let before ← orPanic (prefixAt xml offset)
  if ← walkBackClose before then do
    let after ← orPanic (suffixAt xml (offset + byteLength localName))
    pure (after.head? == some '>')
  else pure false

/-- The loop of the two searches: each time the name occurs, the test. -/
def findElementLoop (test : Text → Text → Nat → Checked Bool) (xml localName : Text) :
    (fuel i : Nat) → Checked (Option Nat)
  | 0, _ => .error .unfinished
  | fuel + 1, i => do
      let rest ← orPanic (suffixAt xml i)
      match find localName rest with
      | none => pure none
      | some rel =>
        if ← test xml localName (i + rel) then pure (some (i + rel))
        else findElementLoop test xml localName fuel (i + rel + byteLength localName)

def findElementOpen (xml localName : Text) (start : Nat) : Checked (Option Nat) :=
  findElementLoop elementOpenAt xml localName (byteLength xml + 1) start

def findElementClose (xml localName : Text) (start : Nat) : Checked (Option Nat) :=
  findElementLoop elementCloseAt xml localName (byteLength xml + 1) start

def descriptorName : Text := "KeyDescriptor".toList

def certName : Text := "X509Certificate".toList

def boundsLoop (xml : Text) : (fuel start : Nat) → (bounds : List Nat) → Checked (List Nat)
  | 0, _, _ => .error .unfinished
  | fuel + 1, start, bounds => do
      match ← findElementOpen xml descriptorName start with
      | none => pure bounds
      | some offset =>
        boundsLoop xml fuel (offset + byteLength descriptorName) (bounds ++ [offset])

def withoutWhitespace (s : Text) : Text := s.filter (fun c => !isWhitespace c)

/-- A body is reported once, and not if it is empty. -/
def push (out : List Text) (body : Text) : List Text :=
  if body.isEmpty || List.contains out body then out else out ++ [body]

def certLoop (block : Text) : (fuel offset : Nat) → (out : List Text) → Checked (List Text)
  | 0, _, _ => .error .unfinished
  | fuel + 1, offset, out => do
      match ← findElementOpen block certName offset with
      | none => pure out
      | some opening => do
          let rest ← orPanic (suffixAt block opening)
          match find ['>'] rest with
          | none => pure out
          | some i => do
              let bodyStart := opening + i + 1
              match ← findElementClose block certName bodyStart with
              | none => pure out
              | some close => do
                  let inner ← orPanic (slice block bodyStart close)
                  -- a prefix is between the `</` and the name
                  let textEnd := (rfind ['<'] inner).elim close (fun i => bodyStart + i)
                  let body ← orPanic (slice block bodyStart textEnd)
                  certLoop block fuel (close + byteLength certName) (push out (withoutWhitespace body))

def isEncryption (attrs : Text) : Bool :=
  Text.contains "use=\"encryption\"".toList attrs || Text.contains "use='encryption'".toList attrs

def readBlock (out : List Text) (block : Text) : Checked (List Text) :=
  let attrs := (Text.splitOn (· == '>') block).head?.getD []
  if isEncryption attrs then pure out else certLoop block (byteLength block + 1) 0 out

/-- Each block ends where the next one starts. -/
def readBlocks (xml : Text) : List Nat → List Text → Checked (List Text)
  | [], out => pure out
  | start :: bounds, out => do
      let block ← orPanic (slice xml start (bounds.head?.getD (byteLength xml)))
      let out ← readBlock out block
      readBlocks xml bounds out

def parseSigningCerts (xml : Text) : Checked (List Text) := do
  let bounds ← boundsLoop xml (byteLength xml + 1) 0 []
  readBlocks xml bounds []

end Metadata
