import AzAppToolkit.Auth.Chunks
import AzAppToolkit.Changelog.Notes
import AzAppToolkit.Lib.Cuts

set_option autoImplicit false

/-! # A pasted certificate

`certificate_body` and `parse_cert_upload` of `credentials.rs`. Of the lines outside the armour a refusal
says nothing; but a label is everything up to the dashes at the end of the line, so that a body on the
line of its marker is taken for one, and shown. -/

namespace CertUpload

open Changelog (linesOf)

/-! ## The model -/

def beginMarker : Text := "-----BEGIN ".toList

def endMarker : Text := "-----END ".toList

def certificateLabel : Text := "CERTIFICATE".toList

def dashes : Text := "-----".toList

def withoutWhitespace (s : Text) : Text := s.filter (fun c => !isWhitespace c)

/-- The label between the marker and the trailing dashes. -/
def labelOf (rest : Text) : Text :=
  (Text.trim (rest.reverse.dropWhile (· == '-')).reverse).take 40

/-- What is read off an armour line. -/
structure Armour where
  begins : Bool
  label : Text
deriving DecidableEq

def armourOf (line : Text) : Option Armour :=
  if beginMarker.isPrefixOf line then some ⟨true, labelOf (line.drop beginMarker.length)⟩
  else if endMarker.isPrefixOf line then some ⟨false, labelOf (line.drop endMarker.length)⟩
  else none

def privateKeyMessage (label : Text) : Text :=
  "this paste contains a private key (".toList ++ (label ++
    ("). Upload only the certificate — " ++
      "the private key stays with the app that signs with it, and nothing was sent").toList)

def otherLabelMessage (label : Text) : Text :=
  "a ".toList ++ (label ++
    " block isn't a certificate; paste the -----BEGIN CERTIFICATE----- block".toList)

def incompleteMessage : Text := "incomplete PEM block".toList

def countMessage (n : Nat) : Text :=
  "the paste holds ".toList ++ (Text.decimal n ++
    " certificates; upload only the app's own certificate".toList)

structure Scan where
  armoured : Bool
  current : Option Text
  blocks : List Text

def readLine (s : Scan) (line : Text) : Except Text Scan :=
  match armourOf line with
  | none => .ok { s with current := s.current.map (· ++ withoutWhitespace line) }
  | some ⟨begins, label⟩ =>
    if Text.contains "PRIVATE KEY".toList label then .error (privateKeyMessage label)
    else if label ≠ certificateLabel then .error (otherLabelMessage label)
    else
      match begins, s.current with
      | true, none => .ok ⟨true, some [], s.blocks⟩
      | false, some body => .ok ⟨true, none, s.blocks ++ [body]⟩
      -- a BEGIN inside an open block, or an END with none open
      | true, some _ => .error incompleteMessage
      | false, none => .error incompleteMessage

def trimmedLines (input : Text) : List Text := (linesOf input).map Text.trim

def scan (s : Scan) (lines : List Text) : Except Text Scan := lines.foldlM readLine s

def certificateBody (input : Text) : Except Text Text :=
  match scan ⟨false, none, []⟩ (trimmedLines input) with
  | .error reason => .error reason
  | .ok s =>
    if s.current.isSome then .error incompleteMessage
    else if !s.armoured then .ok (withoutWhitespace input)
    else
      match s.blocks with
      | [body] => .ok body
      | blocks => .error (countMessage blocks.length)

/-- What reads a certificate: base64, X.509, dates and the digest. -/
structure Libraries where
  decode : Text → Except Text (List UInt8)
  encode : List UInt8 → Text
  /-- What is left after the certificate, and the end of its validity in seconds. -/
  parseX509 : List UInt8 → Option (List UInt8 × Int)
  /-- In nanoseconds. -/
  fromTimestamp : Int → Option Int
  formatDay : Int → Text
  sha1Hex : List UInt8 → Text

structure UploadedCert where
  keyB64 : Text
  thumbprint : Text
  notAfter : Int

def parseCertUpload (lib : Libraries) (input : Text) (now : Int) : Except Text UploadedCert :=
  match certificateBody input with
  | .error reason => .error reason
  | .ok body =>
    if body.isEmpty then .error "certificate body is empty".toList
    else
      match lib.decode body with
      | .error e => .error ("not valid base64: ".toList ++ e)
      | .ok der =>
        match lib.parseX509 der with
        | none => .error ("not an X.509 certificate — paste the certificate (.cer/.crt/.pem), not a " ++
            "key or a .pfx/.p7b bundle").toList
        | some (rest, seconds) =>
          if !rest.isEmpty then .error "unexpected data after the certificate".toList
          else
            match lib.fromTimestamp seconds with
            | none => .error "the certificate's expiry date is out of range".toList
            | some notAfter =>
              if notAfter ≤ now then
                .error ("this certificate expired on ".toList ++ lib.formatDay notAfter ++
                  "; upload a current one".toList)
              else .ok ⟨lib.encode der, lib.sha1Hex der, notAfter⟩

/-! ## What is promised -/

/-- One `CERTIFICATE` block, and the text between its two lines. -/
def OneBlock (input body : Text) : Prop :=
  ∃ before opening inside closing after,
    trimmedLines input = before ++ opening :: (inside ++ closing :: after) ∧
      (∀ line ∈ before ++ inside ++ after, armourOf line = none) ∧
      armourOf opening = some ⟨true, certificateLabel⟩ ∧
      armourOf closing = some ⟨false, certificateLabel⟩ ∧ body = inside.flatMap withoutWhitespace

/-- What may be decoded: the one block, or the text if there is no armour. -/
def IsBody (input body : Text) : Prop :=
  ((∀ line ∈ trimmedLines input, armourOf line = none) ∧ body = withoutWhitespace input) ∨
    OneBlock input body

def paste (pre label body post : Text) : Text :=
  pre ++ (beginMarker ++ label ++ dashes) ++ body ++ (endMarker ++ label ++ dashes) ++ post

/-- The refusals of the two texts are equal. -/
def RefusedAlike (input input' : Text) : Prop :=
  ∀ reason reason', certificateBody input = .error reason → certificateBody input' = .error reason' →
    reason = reason'

/-- The armour lines, in order. -/
def armours (input : Text) : List Armour := (trimmedLines input).filterMap armourOf

/-- The label of the first armour line that is not the next marker of a `CERTIFICATE` block: BEGIN, END,
    and so on in turn. -/
def outOfTurn (k : Nat) : List Armour → Option Text
  | [] => none
  | a :: rest =>
    if a = ⟨k % 2 == 0, certificateLabel⟩ then outOfTurn (k + 1) rest else some a.label

/-- The armour lines go wrong alike: the first out of turn shows the same label, or there is none in
    either and as many lines. A block that is not closed goes wrong like a marker in a wrong place. -/
def WrongAlike (l l' : List Armour) : Prop :=
  match outOfTurn 0 l, outOfTurn 0 l' with
  | some label, some label' => label = label'
  | some label, none => label = certificateLabel ∧ l'.length % 2 = 1
  | none, some label' => label' = certificateLabel ∧ l.length % 2 = 1
  | none, none => (l.length % 2 = 1 ∧ l'.length % 2 = 1) ∨ l.length = l'.length

/-- The body has its own lines: nothing but blanks on those of its markers. -/
def OwnLines (body : Text) : Prop :=
  ∃ first last : Text, (∀ c ∈ first ++ last, isWhitespace c = true ∧ c ≠ '\n') ∧
    (body = first ++ '\n' :: last ∨ ∃ inner, body = first ++ '\n' :: (inner ++ '\n' :: last))

/-! ## Reading the lines -/

/-- The reason for a line out of turn. -/
def outOfTurnMessage (label : Text) : Text :=
  if Text.contains "PRIVATE KEY".toList label then privateKeyMessage label
  else if label ≠ certificateLabel then otherLabelMessage label
  else incompleteMessage

/-- The state after `k` armour lines in turn. -/
structure InTurn (s : Scan) (k : Nat) : Prop where
  armoured : s.armoured = decide (0 < k)
  current : s.current.isSome = decide (k % 2 = 1)
  blocks : s.blocks.length = k / 2

section Lines

variable {s : Scan} {k : Nat} {line : Text} {lines : List Text}

theorem readLine_none (h : armourOf line = none) :
    readLine s line = .ok { s with current := s.current.map (· ++ withoutWhitespace line) } := by
  unfold readLine
  rw [h]

/-- A line in turn opens a block, or closes the open one. -/
theorem readLine_inTurn (hs : InTurn s k) (h : armourOf line = some ⟨k % 2 == 0, certificateLabel⟩) :
    ∃ s', readLine s line = .ok s' ∧ InTurn s' (k + 1) := by
  obtain ⟨hkey, hlabel⟩ : Text.contains "PRIVATE KEY".toList certificateLabel = false ∧
      certificateLabel = certificateLabel := ⟨by decide, rfl⟩
  have hcurrent := hs.current
  have hblocks := hs.blocks
  unfold readLine
  rw [h]
  simp only [hkey, Bool.false_eq_true, if_false, ne_eq, not_true_eq_false]
  by_cases hodd : k % 2 = 1
  · rw [decide_eq_true hodd, Option.isSome_iff_exists] at hcurrent
    obtain ⟨body, hbody⟩ := hcurrent
    have hbegins : (k % 2 == 0) = false := by simp [hodd]
    rw [hbegins, hbody]
    refine ⟨_, rfl, by simp, by simp; omega, ?_⟩
    rw [List.length_append, List.length_singleton]
    omega
  · rw [decide_eq_false hodd, Option.isSome_eq_false_iff, Option.isNone_iff_eq_none] at hcurrent
    have hbegins : (k % 2 == 0) = true := by simp; omega
    rw [hbegins, hcurrent]
    exact ⟨_, rfl, by simp, by simp; omega, by dsimp only; omega⟩

theorem readLine_outOfTurn {a : Armour} (hs : InTurn s k) (h : armourOf line = some a)
    (hne : a ≠ ⟨k % 2 == 0, certificateLabel⟩) :
    readLine s line = .error (outOfTurnMessage a.label) := by
  obtain ⟨begins, label⟩ := a
  have hcurrent := hs.current
  unfold readLine outOfTurnMessage
  rw [h]
  dsimp only
  split
  · rfl
  · split
    · rfl
    · next hlabel =>
      have hlabel : label = certificateLabel := not_not.1 hlabel
      have hbegins : begins ≠ (k % 2 == 0) := by
        rintro rfl
        exact hne (by rw [hlabel])
      by_cases hodd : k % 2 = 1
      · rw [decide_eq_true hodd, Option.isSome_iff_exists] at hcurrent
        obtain ⟨body, hbody⟩ := hcurrent
        have hbegins : begins = true := by simpa [hodd] using hbegins
        rw [hbegins, hbody]
      · rw [decide_eq_false hodd, Option.isSome_eq_false_iff, Option.isNone_iff_eq_none] at hcurrent
        have heven : k % 2 = 0 := by omega
        have hbegins : begins = false := by simpa [heven] using hbegins
        rw [hbegins, hcurrent]

theorem InTurn.plain (hs : InTurn s k) (f : Text → Text) :
    InTurn { s with current := s.current.map f } k :=
  ⟨hs.armoured, by simpa using hs.current, hs.blocks⟩

/-- The lines end in turn, or with the reason of the first that is not. -/
theorem scan_spec (hs : InTurn s k) (lines : List Text) :
    match outOfTurn k (lines.filterMap armourOf) with
    | some label => scan s lines = .error (outOfTurnMessage label)
    | none => ∃ s', scan s lines = .ok s' ∧ InTurn s' (k + (lines.filterMap armourOf).length) := by
  induction lines generalizing s k with
  | nil => exact ⟨s, rfl, hs⟩
  | cons line lines ih =>
    unfold scan at ih ⊢
    rw [List.foldlM_cons]
    cases harmour : armourOf line with
    | none =>
      rw [List.filterMap_cons_none harmour, readLine_none harmour]
      exact ih (hs.plain _)
    | some a =>
      rw [List.filterMap_cons_some harmour, outOfTurn]
      by_cases hturn : a = ⟨k % 2 == 0, certificateLabel⟩
      · rw [if_pos hturn]
        obtain ⟨s', hread, hs'⟩ := readLine_inTurn hs (hturn ▸ harmour)
        have hlength : k + ((lines.filterMap armourOf).length + 1) =
            k + 1 + (lines.filterMap armourOf).length := by omega
        rw [hread, List.length_cons, hlength]
        exact ih hs'
      · rw [if_neg hturn, readLine_outOfTurn hs harmour hturn]
        rfl

/-- Without armour the scan only collects. -/
theorem scan_plain (h : ∀ line ∈ lines, armourOf line = none) :
    scan s lines =
      .ok { s with current := s.current.map (· ++ lines.flatMap withoutWhitespace) } := by
  induction lines generalizing s with
  | nil =>
    have hsame : s.current.map (· ++ ([] : List Text).flatMap withoutWhitespace) = s.current := by
      cases s.current <;> simp
    rw [hsame]
    rfl
  | cons line lines ih =>
    obtain ⟨hline, hlines⟩ := List.forall_mem_cons.1 h
    unfold scan at ih ⊢
    rw [List.foldlM_cons, readLine_none hline]
    refine (ih hlines).trans ?_
    cases s.current <;> simp

theorem scan_append (s : Scan) (l l' : List Text) :
    scan s (l ++ l') = (scan s l >>= fun s' => scan s' l') := List.foldlM_append ..

theorem scan_cons (s : Scan) (line : Text) (l : List Text) :
    scan s (line :: l) = (readLine s line >>= fun s' => scan s' l) := List.foldlM_cons ..

end Lines

/-! ## What is refused -/

section Refusals

variable {input body : Text}

/-- The reason for a refusal, from the armour lines. -/
def refusal (l : List Armour) : Option Text :=
  match outOfTurn 0 l with
  | some label => some (outOfTurnMessage label)
  | none =>
    if l.length % 2 = 1 then some incompleteMessage
    else if l.length / 2 ≤ 1 then none
    else some (countMessage (l.length / 2))

theorem start_inTurn : InTurn ⟨false, none, []⟩ 0 := ⟨rfl, rfl, rfl⟩

theorem certificateBody_spec (input : Text) :
    match refusal (armours input) with
    | some reason => certificateBody input = .error reason
    | none => (armours input = [] ∧ certificateBody input = .ok (withoutWhitespace input)) ∨
        ((armours input).length = 2 ∧ ∃ body, certificateBody input = .ok body) := by
  have hscan := scan_spec start_inTurn (trimmedLines input)
  have harmours : (trimmedLines input).filterMap armourOf = armours input := rfl
  unfold refusal certificateBody
  rw [harmours] at hscan
  cases hturn : outOfTurn 0 (armours input) with
  | some label =>
    rw [hturn] at hscan
    rw [hscan]
  | none =>
    rw [hturn] at hscan
    obtain ⟨s, hs, harmoured, hcurrent, hblocks⟩ := hscan
    rw [Nat.zero_add] at harmoured hcurrent hblocks
    rw [hs]
    dsimp only
    rw [hcurrent, harmoured]
    by_cases hodd : (armours input).length % 2 = 1
    · simp [hodd]
    · by_cases hfew : (armours input).length / 2 ≤ 1
      · by_cases hnone : (armours input).length = 0
        · have hnil : armours input = [] := List.length_eq_zero_iff.1 hnone
          simp [hnil]
        · have htwo : (armours input).length = 2 := by omega
          rw [htwo] at hblocks
          obtain ⟨b, hb⟩ := List.length_eq_one_iff.1 hblocks
          simp [htwo, hb]
      · have hpos : 0 < (armours input).length := by omega
        rw [if_neg hodd, if_neg hfew]
        simp only [hodd, decide_false, Bool.false_eq_true, if_false, hpos, decide_true, Bool.not_true]
        split
        · next heq =>
          rw [heq, List.length_singleton] at hblocks
          omega
        · rw [hblocks]

theorem certificateBody_error {reason : Text} :
    certificateBody input = .error reason ↔ refusal (armours input) = some reason := by
  have hspec := certificateBody_spec input
  cases hrefusal : refusal (armours input) with
  | some reason' =>
    rw [hrefusal] at hspec
    rw [hspec, Except.error.injEq, Option.some.injEq]
  | none =>
    rw [hrefusal] at hspec
    rcases hspec with ⟨-, hok⟩ | ⟨-, body, hok⟩ <;> simp [hok]

/-! ## What is accepted -/

theorem certificateBody_of_plain (h : ∀ line ∈ trimmedLines input, armourOf line = none) :
    certificateBody input = .ok (withoutWhitespace input) := by
  unfold certificateBody
  rw [scan_plain h]
  rfl

theorem certificateBody_of_oneBlock (h : OneBlock input body) : certificateBody input = .ok body := by
  obtain ⟨before, opening, inside, closing, after, hlines, hplain, hopening, hclosing, rfl⟩ := h
  simp only [List.forall_mem_append] at hplain
  obtain ⟨⟨hbefore, hinside⟩, hafter⟩ := hplain
  have hopen : ∀ blocks, readLine ⟨false, none, blocks⟩ opening = .ok ⟨true, some [], blocks⟩ := by
    intro blocks
    unfold readLine
    rw [hopening]
    rfl
  have hclose : ∀ text blocks,
      readLine ⟨true, some text, blocks⟩ closing = .ok ⟨true, none, blocks ++ [text]⟩ := by
    intro text blocks
    unfold readLine
    rw [hclosing]
    rfl
  have hscan : scan ⟨false, none, []⟩ (trimmedLines input) =
      .ok ⟨true, none, [inside.flatMap withoutWhitespace]⟩ := by
    rw [hlines, scan_append, scan_plain hbefore]
    refine (scan_cons ..).trans ?_
    rw [Option.map_none, hopen]
    refine (scan_append ..).trans ?_
    rw [scan_plain hinside]
    refine (scan_cons ..).trans ?_
    rw [Option.map_some, hclose]
    exact scan_plain hafter
  unfold certificateBody
  rw [hscan]
  rfl

/-- Two armour lines in turn, and what stands between them. -/
theorem oneBlock_of_armours (hlength : (armours input).length = 2)
    (hturn : outOfTurn 0 (armours input) = none) : ∃ body, OneBlock input body := by
  obtain ⟨a, b, hab⟩ := List.length_eq_two.1 hlength
  rw [hab] at hturn
  have ha : a = ⟨true, certificateLabel⟩ := by
    by_contra hne
    simp [outOfTurn, hne] at hturn
  have hb : b = ⟨false, certificateLabel⟩ := by
    by_contra hne
    simp [outOfTurn, ha, hne] at hturn
  obtain ⟨before, opening, rest, hlines, hbefore, hopening, hrest⟩ := List.filterMap_eq_cons_iff.1 hab
  obtain ⟨inside, closing, after, rfl, hinside, hclosing, hafter⟩ := List.filterMap_eq_cons_iff.1 hrest
  refine ⟨_, before, opening, inside, closing, after, hlines, ?_, ha ▸ hopening, hb ▸ hclosing, rfl⟩
  simp only [List.forall_mem_append]
  exact ⟨⟨hbefore, hinside⟩, List.filterMap_eq_nil_iff.1 hafter⟩

theorem certificateBody_ok : certificateBody input = .ok body ↔ IsBody input body := by
  constructor
  · intro hok
    have hspec := certificateBody_spec input
    cases hrefusal : refusal (armours input) with
    | some reason =>
      rw [hrefusal] at hspec
      exact absurd (hspec.symm.trans hok) (by simp)
    | none =>
      rw [hrefusal] at hspec
      have hturn : outOfTurn 0 (armours input) = none := by
        unfold refusal at hrefusal
        split at hrefusal
        · exact nomatch hrefusal
        · next hturn => exact hturn
      rcases hspec with ⟨hnil, hwhole⟩ | ⟨hlength, -⟩
      · refine Or.inl ⟨List.filterMap_eq_nil_iff.1 hnil, ?_⟩
        exact Except.ok.inj (hok.symm.trans hwhole)
      · obtain ⟨body', hblock⟩ := oneBlock_of_armours hlength hturn
        obtain rfl := Except.ok.inj (hok.symm.trans (certificateBody_of_oneBlock hblock))
        exact Or.inr hblock
  · rintro (⟨hplain, rfl⟩ | hblock)
    · exact certificateBody_of_plain hplain
    · exact certificateBody_of_oneBlock hblock

/-- What is uploaded is what the body decodes to. -/
theorem parseCertUpload_ok {lib : Libraries} {now : Int} {cert : UploadedCert}
    (h : parseCertUpload lib input now = .ok cert) :
    ∃ body der, IsBody input body ∧ lib.decode body = .ok der ∧ cert.keyB64 = lib.encode der := by
  unfold parseCertUpload at h
  split at h
  · exact nomatch h
  · next body hbody =>
    refine ⟨body, ?_⟩
    split at h
    · exact nomatch h
    · split at h
      · exact nomatch h
      · next der hder =>
        refine ⟨der, certificateBody_ok.1 hbody, hder, ?_⟩
        split at h
        · exact nomatch h
        · split at h
          · exact nomatch h
          · split at h
            · exact nomatch h
            · split at h
              · exact nomatch h
              · rw [← Except.ok.inj h]

end Refusals

/-! ## Which refusals are equal -/

section Messages

variable {label label' : Text} {n n' : Nat}

theorem privateKeyMessage_inj (h : privateKeyMessage label = privateKeyMessage label') : label = label' :=
  List.append_cancel_right (List.append_cancel_left h)

theorem otherLabelMessage_inj (h : otherLabelMessage label = otherLabelMessage label') : label = label' :=
  List.append_cancel_right (List.append_cancel_left h)

theorem countMessage_inj (h : countMessage n = countMessage n') : n = n' :=
  Auth.decimal_inj (List.append_cancel_right (List.append_cancel_left h))

/-- The reasons begin differently. -/
theorem first_outOfTurnMessage (label : Text) :
    ((outOfTurnMessage label).take 4 = "this".toList ∧ outOfTurnMessage label = privateKeyMessage label) ∨
      ((outOfTurnMessage label).take 2 = "a ".toList ∧ outOfTurnMessage label = otherLabelMessage label) ∨
      (label = certificateLabel ∧ outOfTurnMessage label = incompleteMessage) := by
  unfold outOfTurnMessage
  split
  · exact Or.inl ⟨rfl, rfl⟩
  · split
    · exact Or.inr (Or.inl ⟨rfl, rfl⟩)
    · next hlabel => exact Or.inr (Or.inr ⟨not_not.1 hlabel, rfl⟩)

theorem outOfTurnMessage_inj (h : outOfTurnMessage label = outOfTurnMessage label') : label = label' := by
  have htwo := congrArg (List.take 2) h
  rcases first_outOfTurnMessage label with ⟨-, heq⟩ | ⟨-, heq⟩ | ⟨hlabel, heq⟩ <;>
    rcases first_outOfTurnMessage label' with ⟨-, heq'⟩ | ⟨-, heq'⟩ | ⟨hlabel', heq'⟩ <;>
    rw [heq, heq'] at h htwo
  · exact privateKeyMessage_inj h
  · exact absurd (show "th".toList = "a ".toList from htwo) (by decide)
  · exact absurd (show "th".toList = "in".toList from htwo) (by decide)
  · exact absurd (show "a ".toList = "th".toList from htwo) (by decide)
  · exact otherLabelMessage_inj h
  · exact absurd (show "a ".toList = "in".toList from htwo) (by decide)
  · exact absurd (show "in".toList = "th".toList from htwo) (by decide)
  · exact absurd (show "in".toList = "a ".toList from htwo) (by decide)
  · rw [hlabel, hlabel']

theorem outOfTurnMessage_ne_count : outOfTurnMessage label ≠ countMessage n := by
  intro h
  have hfour := congrArg (List.take 4) h
  have hcount : (countMessage n).take 4 = "the ".toList := rfl
  rw [hcount] at hfour
  rcases first_outOfTurnMessage label with ⟨hthis, -⟩ | ⟨ha, -⟩ | ⟨-, heq⟩
  · exact absurd (hthis.symm.trans hfour) (by decide)
  · have htwo := congrArg (List.take 2) hfour
    rw [List.take_take] at htwo
    exact absurd (ha.symm.trans htwo) (by decide)
  · rw [heq] at hfour
    exact absurd hfour (by decide)

theorem outOfTurnMessage_certificateLabel : outOfTurnMessage certificateLabel = incompleteMessage := by
  decide

/-- Two refusals are equal exactly if the armour lines go wrong alike. -/
theorem refusal_eq_iff {l l' : List Armour} {reason reason' : Text} (h : refusal l = some reason)
    (h' : refusal l' = some reason') : reason = reason' ↔ WrongAlike l l' := by
  have hodd : ∀ {l : List Armour} {reason : Text}, (if l.length % 2 = 1 then some incompleteMessage
      else if l.length / 2 ≤ 1 then none else some (countMessage (l.length / 2))) = some reason →
      (l.length % 2 = 1 ∧ reason = outOfTurnMessage certificateLabel) ∨
        (l.length % 2 = 0 ∧ reason = countMessage (l.length / 2)) := by
    intro l reason h
    split at h
    · next hodd => exact Or.inl ⟨hodd, (Option.some.inj h).symm.trans outOfTurnMessage_certificateLabel.symm⟩
    · next hodd =>
      split at h
      · exact nomatch h
      · exact Or.inr ⟨by omega, (Option.some.inj h).symm⟩
  unfold refusal at h h'
  unfold WrongAlike
  cases hturn : outOfTurn 0 l with
  | some label =>
    rw [hturn] at h
    obtain rfl := Option.some.inj h
    cases hturn' : outOfTurn 0 l' with
    | some label' =>
      rw [hturn'] at h'
      obtain rfl := Option.some.inj h'
      exact ⟨outOfTurnMessage_inj, fun heq => congrArg outOfTurnMessage heq⟩
    | none =>
      rw [hturn'] at h'
      rcases hodd h' with ⟨hlength, rfl⟩ | ⟨hlength, rfl⟩
      · exact ⟨fun heq => ⟨outOfTurnMessage_inj heq, hlength⟩, fun heq => congrArg _ heq.1⟩
      · exact iff_of_false outOfTurnMessage_ne_count (fun heq => by omega)
  | none =>
    rw [hturn] at h
    cases hturn' : outOfTurn 0 l' with
    | some label' =>
      rw [hturn'] at h'
      obtain rfl := Option.some.inj h'
      rcases hodd h with ⟨hlength, rfl⟩ | ⟨hlength, rfl⟩
      · exact ⟨fun heq => ⟨(outOfTurnMessage_inj heq).symm, hlength⟩, fun heq => congrArg _ heq.1.symm⟩
      · exact iff_of_false outOfTurnMessage_ne_count.symm (fun heq => by omega)
    | none =>
      rw [hturn'] at h'
      rcases hodd h with ⟨hlength, rfl⟩ | ⟨hlength, rfl⟩ <;>
        rcases hodd h' with ⟨hlength', rfl⟩ | ⟨hlength', rfl⟩
      · exact iff_of_true rfl (Or.inl ⟨hlength, hlength'⟩)
      · exact iff_of_false outOfTurnMessage_ne_count (fun heq => by omega)
      · exact iff_of_false outOfTurnMessage_ne_count.symm (fun heq => by omega)
      · constructor
        · intro heq
          have hhalf := countMessage_inj heq
          exact Or.inr (by omega)
        · rintro (heq | heq)
          · omega
          · rw [heq]

end Messages

/-! ## A body on lines of its own -/

section OwnLines

theorem trim_append_blank {a w : Text} (hw : ∀ c ∈ w, isWhitespace c = true) :
    Text.trim (a ++ w) = Text.trim a := by
  have hblank : w.dropWhile isWhitespace = [] := List.dropWhile_eq_nil_iff.2 hw
  have hreverse : ∀ c ∈ w.reverse, isWhitespace c = true := fun c hc => hw c (List.mem_reverse.1 hc)
  unfold Text.trim
  rw [List.dropWhile_append]
  split
  · next hempty =>
    rw [hblank, List.isEmpty_iff.1 hempty]
  · rw [List.reverse_append, List.dropWhile_append_of_pos hreverse]

theorem trim_blank_append {a w : Text} (hw : ∀ c ∈ w, isWhitespace c = true) :
    Text.trim (w ++ a) = Text.trim a := by
  unfold Text.trim
  rw [List.dropWhile_append_of_pos hw]

theorem trim_sublist (s : Text) : (Text.trim s).Sublist s := by
  unfold Text.trim
  have hright := (List.dropWhile_sublist (l := (s.dropWhile isWhitespace).reverse) isWhitespace).reverse
  rw [List.reverse_reverse] at hright
  exact hright.trans (List.dropWhile_sublist isWhitespace)

def isNewline (c : Char) : Bool := c == '\n'

/-- A `\r` before the line end goes with the blanks. -/
theorem trim_lineEnd (line : Text) :
    Text.trim (if line.getLast? = some '\r' then line.dropLast else line) = Text.trim line := by
  split
  · next hlast =>
    have hline := List.dropLast_append_getLast? '\r' hlast
    have hblank : ∀ c ∈ ['\r'], isWhitespace c = true := List.forall_mem_singleton.2 rfl
    have htrim := trim_append_blank (a := line.dropLast) hblank
    rw [hline] at htrim
    exact htrim.symm
  · rfl

/-- The armour lines, without the care for the line ends: a trimmed line has none. -/
theorem armours_eq (input : Text) :
    armours input = (Text.splitOn isNewline input).filterMap (fun line => armourOf (Text.trim line)) := by
  have hended : ∀ lines : List Text, (lines.map (fun line =>
        if line.getLast? = some '\r' then line.dropLast else line)).filterMap
          (fun line => armourOf (Text.trim line)) =
      lines.filterMap (fun line => armourOf (Text.trim line)) := by
    intro lines
    rw [List.filterMap_map]
    exact List.filterMap_congr (fun line _ => congrArg armourOf (trim_lineEnd line))
  have harmours : armours input = (linesOf input).filterMap (fun line => armourOf (Text.trim line)) :=
    List.filterMap_map
  have hparts := List.dropLast_append_getLast (Cuts.splitOn_ne_nil isNewline input)
  rw [harmours]
  conv_rhs => rw [← hparts]
  unfold linesOf
  dsimp only
  rw [show Text.splitOn (· == '\n') input = Text.splitOn isNewline input from rfl]
  rw [List.getLast?_eq_some_getLast (Cuts.splitOn_ne_nil isNewline input), List.filterMap_append]
  cases (Text.splitOn isNewline input).getLast (Cuts.splitOn_ne_nil isNewline input) with
  | nil =>
    dsimp only
    rw [hended]
    exact (List.append_nil _).symm
  | cons c last =>
    dsimp only
    rw [List.filterMap_append, hended]

theorem armours_append (a b : Text) : armours (a ++ '\n' :: b) = armours a ++ armours b := by
  rw [armours_eq, armours_eq, armours_eq, Cuts.splitOn_append_sep isNewline rfl, List.filterMap_append]

theorem armours_of_line {line : Text} (h : '\n' ∉ line) :
    armours line = (armourOf (Text.trim line)).toList := by
  have hnone : ∀ c ∈ line, isNewline c = false := by
    intro c hc
    rw [isNewline, beq_eq_false_iff_ne]
    rintro rfl
    exact h hc
  rw [armours_eq, Cuts.splitOn_of_none hnone]
  cases harmour : armourOf (Text.trim line) <;> simp [harmour]

/-- Without a dash there is no armour. -/
theorem armourOf_of_dashless {line : Text} (h : '-' ∉ line) : armourOf line = none := by
  have hmarker : ∀ rest : Text, ('-' :: rest).isPrefixOf line = false := by
    intro rest
    rw [Bool.eq_false_iff]
    intro hprefix
    exact h ((List.isPrefixOf_iff_prefix.1 hprefix).subset List.mem_cons_self)
  have hbegin : beginMarker.isPrefixOf line = false := hmarker "----BEGIN ".toList
  have hend : endMarker.isPrefixOf line = false := hmarker "----END ".toList
  unfold armourOf
  rw [hbegin, hend]
  rfl

theorem armours_of_dashless {s : Text} (h : '-' ∉ s) : armours s = [] := by
  induction hlength : s.length using Nat.strong_induction_on generalizing s with
  | _ n ih =>
    by_cases hline : '\n' ∈ s
    · obtain ⟨a, b, rfl⟩ := List.append_of_mem hline
      rw [List.length_append, List.length_cons] at hlength
      rw [List.mem_append, List.mem_cons, not_or, not_or] at h
      rw [armours_append, ih a.length (by omega) h.1 rfl, ih b.length (by omega) h.2.2 rfl]
      rfl
    · have htrim : '-' ∉ Text.trim s := fun hmem => h ((trim_sublist s).subset hmem)
      rw [armours_of_line hline, armourOf_of_dashless htrim]
      rfl

/-- Blanks at the end of the last line. -/
theorem armours_append_blank {a w : Text} (hw : ∀ c ∈ w, isWhitespace c = true ∧ c ≠ '\n') :
    armours (a ++ w) = armours a := by
  have hnone : '\n' ∉ w := fun hmem => (hw _ hmem).2 rfl
  have hline : ∀ b : Text, '\n' ∉ b → armours (b ++ w) = armours b := by
    intro b hb
    have hbw : '\n' ∉ b ++ w := by
      rw [List.mem_append, not_or]
      exact ⟨hb, hnone⟩
    rw [armours_of_line hbw, armours_of_line hb, trim_append_blank (fun c hc => (hw c hc).1)]
  by_cases hmem : '\n' ∈ a
  · obtain ⟨x, c, y, rfl, hc, hy⟩ := Cuts.exists_last (p := isNewline) ⟨_, hmem, rfl⟩
    obtain rfl : c = '\n' := beq_iff_eq.1 hc
    have hy' : '\n' ∉ y := fun hin => Bool.noConfusion ((hy _ hin).symm.trans rfl)
    rw [List.append_assoc, List.cons_append, armours_append, armours_append, hline y hy']
  · exact hline a hmem

/-- Blanks at the start of the first line. -/
theorem armours_blank_append {a w : Text} (hw : ∀ c ∈ w, isWhitespace c = true ∧ c ≠ '\n') :
    armours (w ++ a) = armours a := by
  have hnone : '\n' ∉ w := fun hmem => (hw _ hmem).2 rfl
  have hline : ∀ b : Text, '\n' ∉ b → armours (w ++ b) = armours b := by
    intro b hb
    have hwb : '\n' ∉ w ++ b := by
      rw [List.mem_append, not_or]
      exact ⟨hnone, hb⟩
    rw [armours_of_line hwb, armours_of_line hb, trim_blank_append (fun c hc => (hw c hc).1)]
  by_cases hmem : '\n' ∈ a
  · obtain ⟨x, c, y, rfl, hx, hc⟩ := Cuts.exists_first (p := isNewline) ⟨_, hmem, rfl⟩
    obtain rfl : c = '\n' := beq_iff_eq.1 hc
    have hx' : '\n' ∉ x := fun hin => Bool.noConfusion ((hx _ hin).symm.trans rfl)
    rw [← List.append_assoc, armours_append, armours_append, hline x hx']
  · exact hline a hmem

/-- The armour lines of a paste do not depend on a body on lines of its own. -/
theorem armours_paste {pre label body post : Text} (hbody : '-' ∉ body) (hlines : OwnLines body) :
    armours (paste pre label body post) =
      armours (pre ++ (beginMarker ++ label ++ dashes)) ++
        armours ((endMarker ++ label ++ dashes) ++ post) := by
  obtain ⟨first, last, hblank, hbody'⟩ := hlines
  rw [List.forall_mem_append] at hblank
  unfold paste
  generalize beginMarker ++ label ++ dashes = opening
  generalize endMarker ++ label ++ dashes = closing
  rcases hbody' with rfl | ⟨inner, rfl⟩
  · have hshape : pre ++ opening ++ (first ++ '\n' :: last) ++ closing ++ post =
        (pre ++ opening) ++ first ++ '\n' :: (last ++ (closing ++ post)) := by simp
    rw [hshape, armours_append, armours_append_blank hblank.1, armours_blank_append hblank.2]
  · have hshape : pre ++ opening ++ (first ++ '\n' :: (inner ++ '\n' :: last)) ++ closing ++ post =
        (pre ++ opening) ++ first ++ '\n' :: (inner ++ '\n' :: (last ++ (closing ++ post))) := by simp
    have hinner : '-' ∉ inner := by
      intro hmem
      exact hbody (List.mem_append_right _ (List.mem_cons_of_mem _ (List.mem_append_left _ hmem)))
    rw [hshape, armours_append, armours_append, armours_append_blank hblank.1,
      armours_blank_append hblank.2, armours_of_dashless hinner, List.nil_append]

end OwnLines

/-! ## What is accepted, and what is refused alike -/

/-- The body that is accepted is the one block, or all of a text without armour, and it is all that is
    uploaded. Two pastes that differ in a body are refused alike exactly if one is accepted or their
    armour lines go wrong alike, and these are the same where the bodies have their own lines. -/
theorem refused_alike_iff {pre label body body' post : Text} (hbody : '-' ∉ body) (hbody' : '-' ∉ body') :
    (∀ input b, certificateBody input = .ok b ↔ IsBody input b) ∧
    (∀ lib input now cert, parseCertUpload lib input now = .ok cert →
      ∃ b der, IsBody input b ∧ lib.decode b = .ok der ∧ cert.keyB64 = lib.encode der) ∧
    (RefusedAlike (paste pre label body post) (paste pre label body' post) ↔
      (∃ b, IsBody (paste pre label body post) b) ∨ (∃ b, IsBody (paste pre label body' post) b) ∨
        WrongAlike (armours (paste pre label body post)) (armours (paste pre label body' post))) ∧
    (OwnLines body → OwnLines body' →
      armours (paste pre label body post) = armours (paste pre label body' post)) := by
  refine ⟨fun _ _ => certificateBody_ok, fun _ _ _ _ h => parseCertUpload_ok h, ?_, ?_⟩
  · generalize paste pre label body post = t
    generalize paste pre label body' post = t'
    constructor
    · intro halike
      cases hbody : certificateBody t with
      | ok b => exact Or.inl ⟨b, certificateBody_ok.1 hbody⟩
      | error reason =>
        cases hbody' : certificateBody t' with
        | ok b => exact Or.inr (Or.inl ⟨b, certificateBody_ok.1 hbody'⟩)
        | error reason' =>
          have hsame := halike reason reason' hbody hbody'
          exact Or.inr (Or.inr ((refusal_eq_iff (certificateBody_error.1 hbody)
            (certificateBody_error.1 hbody')).1 hsame))
    · rintro (⟨b, hb⟩ | ⟨b, hb⟩ | hwrong) reason reason' hreason hreason'
      · exact absurd ((certificateBody_ok.2 hb).symm.trans hreason) (by simp)
      · exact absurd ((certificateBody_ok.2 hb).symm.trans hreason') (by simp)
      · exact (refusal_eq_iff (certificateBody_error.1 hreason)
          (certificateBody_error.1 hreason')).2 hwrong
  · intro hlines hlines'
    rw [armours_paste hbody hlines, armours_paste hbody' hlines']

def keyLabel : Text := "PRIVATE KEY".toList

theorem WrongAlike.refl (l : List Armour) : WrongAlike l l := by
  unfold WrongAlike
  cases outOfTurn 0 l with
  | some label => rfl
  | none => exact Or.inr rfl

theorem refused_alike_iff_own_lines :
    RefusedAlike (paste [] keyLabel "\nMIIA\n".toList []) (paste [] keyLabel "\nMIIB\nMIIC\n".toList []) := by
  have hiff := @refused_alike_iff [] keyLabel "\nMIIA\n".toList "\nMIIB\nMIIC\n".toList [] (by decide)
    (by decide)
  have hsame := hiff.2.2.2
    ⟨[], [], by simp, Or.inr ⟨"MIIA".toList, rfl⟩⟩ ⟨[], [], by simp, Or.inr ⟨"MIIB\nMIIC".toList, rfl⟩⟩
  exact hiff.2.2.1.2 (Or.inr (Or.inr (hsame ▸ WrongAlike.refl _)))

set_option maxRecDepth 4000 in
/-- A private key on the line of its marker is shown in the refusal. -/
theorem key_on_marker_line_shown :
    ¬ ∀ pre label body body' post : Text, '-' ∉ body → '-' ∉ body' →
      RefusedAlike (paste pre label body post) (paste pre label body' post) := by
  intro h
  have hshown : ∀ body ∈ ["MIIA".toList, "MIIB".toList], certificateBody (paste [] keyLabel body []) =
      .error (privateKeyMessage (keyLabel ++ dashes ++ body ++ endMarker ++ keyLabel)) := by decide
  have hsame := h [] keyLabel "MIIA".toList "MIIB".toList [] (by decide) (by decide) _ _
    (hshown _ List.mem_cons_self) (hshown _ (List.mem_cons_of_mem _ List.mem_cons_self))
  exact absurd (privateKeyMessage_inj hsame) (by decide)

end CertUpload
