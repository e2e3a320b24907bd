import AzAppToolkit.Sso.Metadata

set_option autoImplicit false

/-! # Metadata documents

Elements, attributes and character data in every layout in which they are printed, without comments and
CDATA sections; which certificates a document publishes, and which of them the scanner attributes to a
signing descriptor. -/

namespace Metadata

/-! ## Layout -/

/-- What a name is made of. -/
def isNameChar (c : Char) : Bool := !endsName c && !"<:=\"'".toList.contains c

structure NamePart where
  chars : Text
  nonempty : chars ≠ []
  valid : chars.all isNameChar = true

/-- A local name, with or without a namespace. -/
structure Name where
  space : Option NamePart
  localPart : NamePart

/-- What stands before the local name. -/
def Name.lead (name : Name) : Text := name.space.elim [] (fun space => space.chars ++ [':'])

def Name.print (name : Name) : Text := name.lead ++ name.localPart.chars

structure Blank where
  chars : Text
  valid : isBlank chars = true

inductive Quote where
  | double
  | single

def Quote.char : Quote → Char
  | .double => '"'
  | .single => '\''

structure Attribute where
  gap : Blank
  separated : gap.chars ≠ []
  name : Name
  beforeEq : Blank
  afterEq : Blank
  quote : Quote
  value : Text
  valid : value.all (fun c => c != '<' && c != quote.char) = true

def Attribute.print (a : Attribute) : Text :=
  a.gap.chars ++ (a.name.print ++ (a.beforeEq.chars ++ '=' ::
    (a.afterEq.chars ++ a.quote.char :: (a.value ++ [a.quote.char]))))

structure Tag where
  name : Name
  attrs : List Attribute
  trailing : Blank

/-- The tag behind its name. -/
def Tag.tail (tag : Tag) : Text := tag.attrs.flatMap Attribute.print ++ tag.trailing.chars

/-- The end of a tag, of an empty element or of one with content. -/
def tagEnd (selfClosing : Bool) : Text := if selfClosing then ['/', '>'] else ['>']

def Tag.print (tag : Tag) (selfClosing : Bool) : Text :=
  '<' :: (tag.name.print ++ (tag.tail ++ tagEnd selfClosing))

def Name.printEnd (name : Name) : Text := '<' :: '/' :: (name.print ++ ['>'])

structure CharData where
  chars : Text
  valid : chars.all (· != '<') = true

/-- The content of an element, from its first node on. -/
inductive Content where
  | nil
  | text (data : CharData) (rest : Content)
  | empty (tag : Tag) (rest : Content)
  | element (tag : Tag) (children rest : Content)

namespace Content

def print : Content → Text
  | nil => []
  | text data rest => data.chars ++ print rest
  | empty tag rest => tag.print true ++ print rest
  | element tag children rest => tag.print false ++ (print children ++ (tag.name.printEnd ++ print rest))

/-- The character data of the content. -/
def chars : Content → Text
  | nil => []
  | text data rest => data.chars ++ chars rest
  | empty _ rest => chars rest
  | element _ children rest => chars children ++ chars rest

end Content

/-! ## The published certificates -/

def Name.isDescriptor (name : Name) : Bool := name.localPart.chars == descriptorName

def Name.isCert (name : Name) : Bool := name.localPart.chars == certName

/-- The value of the `use` attribute. -/
def Tag.use (tag : Tag) : Option Text :=
  (tag.attrs.find? (fun a => a.name.print == "use".toList)).map Attribute.value

/-- A `KeyDescriptor` without a `use` counts. -/
def Tag.isSigning (tag : Tag) : Bool := tag.name.isDescriptor && tag.use != some "encryption".toList

namespace Content

/-- The certificates within signing descriptors, in document order. -/
def certsWithin : (inside : Bool) → Content → List Text
  | _, nil => []
  | inside, text _ rest => certsWithin inside rest
  | inside, empty _ rest => certsWithin inside rest
  | inside, element tag children rest =>
    (if inside && tag.name.isCert then [withoutWhitespace (chars children)] else []) ++
      (certsWithin (inside || tag.isSigning) children ++ certsWithin inside rest)

end Content

/-- Without the empty ones and without repetition. -/
def reported (certs : List Text) : List Text := (certs.filter (fun cert => !cert.isEmpty)).eraseDups

def Content.published (doc : Content) : List Text := reported (certsWithin false doc)

/-! ## Tags in document order -/

/-- A tag, or an end tag. -/
inductive Mark where
  | tag (tag : Tag) (selfClosing : Bool)
  | stop (name : Name)

/-- What stands from its local name on. -/
def Mark.text : Mark → Text
  | .tag t selfClosing => t.name.localPart.chars ++ (t.tail ++ tagEnd selfClosing)
  | .stop name => name.localPart.chars ++ ['>']

/-- A tag of a `KeyDescriptor`, or an end tag of one that has a namespace. -/
def Mark.begins : Mark → Bool
  | .tag t _ => t.name.isDescriptor
  | .stop name => name.isDescriptor && name.space.isSome

/-- `use="encryption"`, in either quote and without a blank, before the first `>`. -/
def Mark.SpellsEncryption (m : Mark) : Prop := ∃ quote : Quote,
  "use=".toList ++ quote.char :: ("encryption".toList ++ [quote.char]) <:+:
    Cuts.before (· == '>') m.text

/-- The last tag of a descriptor, or end tag with a namespace, does not spell `encryption`. -/
def BehindSigning (marks : List Mark) : Prop := ∃ far m near,
  marks = far ++ m :: near ∧ m.begins = true ∧ ¬ m.SpellsEncryption ∧ ∀ m' ∈ near, m'.begins = false

/-- A certificate element: its text, the tags before it, and whether it is within a signing
    descriptor. -/
structure Certificate where
  text : Text
  before : List Mark
  inside : Bool

namespace Content

def marks : Content → List Mark
  | nil => []
  | text _ rest => marks rest
  | empty tag rest => .tag tag true :: marks rest
  | element tag children rest => .tag tag false :: (marks children ++ .stop tag.name :: marks rest)

/-- The certificates of content with these tags before it, in document order. -/
def certificates : (before : List Mark) → (inside : Bool) → Content → List Certificate
  | _, _, nil => []
  | before, inside, text _ rest => certificates before inside rest
  | before, inside, empty tag rest => certificates (before ++ [.tag tag true]) inside rest
  | before, inside, element tag children rest =>
    (if tag.name.isCert then [⟨withoutWhitespace (chars children), before, inside⟩] else []) ++
      (certificates (before ++ [.tag tag false]) (inside || tag.isSigning) children ++
        certificates (before ++ .tag tag false :: (marks children ++ [.stop tag.name])) inside rest)

/-- Those that have a text. -/
def listed (doc : Content) : List Certificate :=
  (certificates [] false doc).filter (fun c => !c.text.isEmpty)

def isCharData : Content → Bool
  | nil => true
  | text _ rest => isCharData rest
  | empty _ _ => false
  | element _ _ _ => false

/-- A certificate behind a signing tag is an element with an end tag, character data only and no `>` in
    an attribute, and no end tag of a certificate with a namespace is behind one alone. -/
def Legible : (before : List Mark) → Content → Prop
  | _, nil => True
  | before, text _ rest => Legible before rest
  | before, empty tag rest =>
    (BehindSigning before → tag.name.isCert = false) ∧ Legible (before ++ [.tag tag true]) rest
  | before, element tag children rest =>
    (tag.name.isCert = true →
      (BehindSigning before → isCharData children = true ∧ '>' ∉ tag.tail) ∧
      (¬ BehindSigning before → tag.name.space.isSome = true →
        ¬ BehindSigning (before ++ .tag tag false :: marks children))) ∧
    Legible (before ++ [.tag tag false]) children ∧
    Legible (before ++ .tag tag false :: (marks children ++ [.stop tag.name])) rest

end Content

/-! ## What the scanner reads

A block of the scanner begins with a `KeyDescriptor` tag and goes on to the next one, past the end of the
descriptor; an end tag with a namespace begins a block as well. -/

/-- Whether certificates are read behind a tag. -/
def Tag.started (tag : Tag) (selfClosing reading : Bool) : Bool :=
  if tag.name.isDescriptor then
    !isEncryption (Cuts.before (· == '>') (tag.name.localPart.chars ++ (tag.tail ++ tagEnd selfClosing)))
  else reading

/-- And behind an end tag. -/
def Name.ended (name : Name) (reading : Bool) : Bool :=
  reading || (name.isDescriptor && name.space.isSome)

/-- Behind a tag or an end tag. -/
def Mark.readsOn (reading : Bool) : Mark → Bool
  | .tag t selfClosing => t.started selfClosing reading
  | .stop name => name.ended reading

def isReading (marks : List Mark) : Bool := marks.foldl Mark.readsOn false

namespace Content

/-- Whether certificates are read behind the content. -/
def readingAfter (reading : Bool) (doc : Content) : Bool := doc.marks.foldl Mark.readsOn reading

/-- The certificates that are read. -/
def certsRead : (reading : Bool) → Content → List Text
  | _, nil => []
  | reading, text _ rest => certsRead reading rest
  | reading, empty tag rest => certsRead (tag.started true reading) rest
  | reading, element tag children rest =>
    (if reading && tag.name.isCert then [withoutWhitespace (chars children)] else []) ++
      (certsRead (tag.started false reading) children ++
        certsRead (tag.name.ended (readingAfter (tag.started false reading) children)) rest)

/-- The scanner finds each certificate it reads whole. -/
def plainFrom : (reading : Bool) → Content → Bool
  | _, nil => true
  | reading, text _ rest => plainFrom reading rest
  | reading, empty tag rest => !(reading && tag.name.isCert) && plainFrom (tag.started true reading) rest
  | reading, element tag children rest =>
    (!tag.name.isCert ||
      (if reading then isCharData children && !List.contains tag.tail '>'
        else tag.name.space.isNone || !readingAfter (tag.started false reading) children)) &&
      (plainFrom (tag.started false reading) children &&
        plainFrom (tag.name.ended (readingAfter (tag.started false reading) children)) rest)

end Content

end Metadata
