import AzAppToolkit.Lib.Substring
import AzAppToolkit.Sso.MetadataScan

set_option autoImplicit false

/-! # What the scanner reports of a document

The scanner follows the document node by node: a tag moves it into a new block or not at all, and a
certificate that is read is read whole. What it reports are the published certificates if each stands
behind a signing tag exactly where it is within a signing descriptor. -/

namespace Metadata

open Slices
open Scanning (Clear)

/-! ## One step of the scanner -/

section Steps

variable {before inBlock a y s rest : Text} {reading : Bool} {n : Name}

theorem bodies_clear (h : Clear (isOpen certName) before a rest) :
    bodies before (a ++ rest) = bodies (before ++ a) rest := by
  have hstep : certStep before (a ++ rest) = certStep (before ++ a) rest := by
    unfold certStep
    rw [Scanning.next_clear h]
  cases hfound : certStep (before ++ a) rest with
  | none => rw [bodies_none hfound, bodies_none (hstep.trans hfound)]
  | some found =>
    obtain ⟨body, before', rest'⟩ := found
    rw [bodies_some hfound, bodies_some (hstep.trans hfound)]

theorem bodies_nil (before : Text) : bodies before [] = [] := bodies_none rfl

/-- Nothing is read over a stretch in which nothing is opened. -/
theorem reads_clear (hblocks : Clear (isOpen descriptorName) before a rest)
    (hcerts : reading = true → ∀ r, Clear (isOpen certName) inBlock a r) :
    reads reading inBlock before (a ++ rest) = reads reading (inBlock ++ a) (before ++ a) rest := by
  unfold reads blocksFrom
  rw [Scanning.pieces_clear hblocks]
  cases reading with
  | false => rfl
  | true =>
    rw [if_pos rfl, if_pos rfl]
    dsimp only
    rw [bodies_clear (hcerts rfl _)]

theorem descriptorName_valid : descriptorName.all isNameChar = true := by decide

theorem certName_valid : certName.all isNameChar = true := by decide

theorem descriptorName_ne : descriptorName ≠ [] := by decide

theorem certName_ne : certName ≠ [] := by decide

theorem certName_ne_descriptorName : certName ≠ descriptorName := by decide

/-- At a position of a descriptor the block ends, and the next one is read or not by its attributes. -/
theorem reads_mark (hopen : isOpen descriptorName before (descriptorName ++ (y ++ rest)) = true)
    (hbehind : Clear (isOpen descriptorName) (before ++ descriptorName) y rest) (hangle : '<' ∉ y)
    (hclosed : '>' ∈ y) :
    reads reading inBlock before (descriptorName ++ (y ++ rest)) =
      reads (!isEncryption (Cuts.before (· == '>') (descriptorName ++ y))) (descriptorName ++ y)
        (before ++ descriptorName ++ y) rest := by
  have hpieces : blocksFrom before (descriptorName ++ (y ++ rest)) =
      ([], (descriptorName ++ (y ++ (blocksFrom (before ++ descriptorName ++ y) rest).1)) ::
        (blocksFrom (before ++ descriptorName ++ y) rest).2) := by
    rw [blocksFrom, (finds_open descriptorName).pieces_named borderless_descriptorName hopen,
      Scanning.pieces_clear hbehind]
  have hattrs : ∀ h : Text, Cuts.before (· == '>') (descriptorName ++ (y ++ h)) =
      Cuts.before (· == '>') (descriptorName ++ y) := by
    intro h
    obtain ⟨u, c, v, hy, hu, hc⟩ := Cuts.exists_first (p := (· == '>'))
      ⟨'>', List.mem_append_right descriptorName hclosed, rfl⟩
    rw [← List.append_assoc, hy, List.append_assoc, List.cons_append, Cuts.before_append_sep hu hc,
      Cuts.before_append_sep hu hc]
  have hstart : ∀ h : Text, bodies [] (descriptorName ++ (y ++ h)) = bodies (descriptorName ++ y) h := by
    intro h
    have hall : '<' ∉ descriptorName ++ y := by
      intro hmem
      exact (List.mem_append.1 hmem).elim (not_angle_of_valid descriptorName_valid) hangle
    rw [← List.append_assoc]
    exact bodies_clear (clear_sealed (sealed_of_not_mem List.not_mem_nil) hall certName h)
  unfold reads
  rw [hpieces]
  dsimp only
  rw [bodies_nil, ite_self, List.nil_append, List.flatMap_cons, blockBodies, hattrs, hstart]
  cases isEncryption (Cuts.before (· == '>') (descriptorName ++ y)) <;> rfl

/-- A tag or an end tag that no search stops at. -/
theorem reads_token (hB : Sealed before) (hb : Sealed inBlock) (stop : Bool) (hy : Behind y)
    (hblocks : n.localPart.chars = descriptorName → (!stop || n.space.isSome) = false)
    (hcerts : reading = true → n.localPart.chars = certName → (!stop || n.space.isSome) = false) :
    reads reading inBlock before (tokenLead stop n ++ (n.localPart.chars ++ y) ++ rest) =
      reads reading (inBlock ++ (tokenLead stop n ++ (n.localPart.chars ++ y)))
        (before ++ (tokenLead stop n ++ (n.localPart.chars ++ y))) rest :=
  reads_clear (clear_token descriptorName_valid descriptorName_ne hB stop n hy hblocks rest)
    (fun hreading r => clear_token certName_valid certName_ne hb stop n hy (hcerts hreading) r)

/-- A tag of a descriptor, or an end tag with a namespace. -/
theorem reads_token_mark (hB : Sealed before) (stop : Bool) (hy : Behind y)
    (hown : n.localPart.chars = descriptorName) (hopens : (!stop || n.space.isSome) = true) :
    reads reading inBlock before (tokenLead stop n ++ (n.localPart.chars ++ y) ++ rest) =
      reads (!isEncryption (Cuts.before (· == '>') (n.localPart.chars ++ y))) (n.localPart.chars ++ y)
        (before ++ (tokenLead stop n ++ (n.localPart.chars ++ y))) rest := by
  have hopen := isOpen_token descriptorName_valid hB stop n hy hown hopens rest
  have hbehind := clear_behind_name stop n hy descriptorName before rest
  rw [hown] at hopen hbehind ⊢
  have hlead : reads reading inBlock before (tokenLead stop n ++ (descriptorName ++ (y ++ rest))) =
      reads reading (inBlock ++ tokenLead stop n) (before ++ tokenLead stop n)
        (descriptorName ++ (y ++ rest)) :=
    reads_clear (clear_lead descriptorName_valid descriptorName_ne stop n before _)
      (fun _ r => clear_lead certName_valid certName_ne stop n inBlock r)
  have hshape : tokenLead stop n ++ (descriptorName ++ y) ++ rest =
      tokenLead stop n ++ (descriptorName ++ (y ++ rest)) := by simp
  have hbefore : before ++ (tokenLead stop n ++ (descriptorName ++ y)) =
      before ++ tokenLead stop n ++ descriptorName ++ y := by simp
  rw [hshape, hlead, reads_mark hopen hbehind hy.angle hy.closed, hbefore]

/-- A certificate with an end tag, read of a block. -/
theorem bodies_cert (hb : Sealed inBlock) {tail : Text} (hy : Behind (tail ++ ['>'])) (htail : '>' ∉ tail)
    (hs : '<' ∉ s) (hown : n.localPart.chars = certName) (h : Text) :
    bodies inBlock (tokenLead false n ++
        (certName ++ (tail ++ '>' :: (s ++ (tokenLead true n ++ (certName ++ '>' :: h)))))) =
      withoutWhitespace s ::
        bodies (inBlock ++ (tokenLead false n ++ (certName ++ (tail ++ ['>'])) ++
          (s ++ (tokenLead true n ++ (certName ++ ['>']))))) h := by
  have hname : '<' ∉ certName ∧ '>' ∉ certName := by decide
  have htagEnd : '>' ∉ certName ++ tail := fun hmem => (List.mem_append.1 hmem).elim hname.2 htail
  generalize hcontent : s ++ (tokenLead true n ++ (certName ++ '>' :: h)) = content
  generalize hstart : inBlock ++ tokenLead false n ++ (certName ++ tail) ++ ['>'] = bodyStart
  have hstep : certStep inBlock (tokenLead false n ++ (certName ++ (tail ++ '>' :: content))) =
      some (s, bodyStart ++ s ++ tokenLead true n ++ certName, '>' :: h) := by
    have hopen := isOpen_token certName_valid hb false n hy hown rfl content
    have htag : certName ++ (tail ++ '>' :: content) = certName ++ ((tail ++ ['>']) ++ content) := by simp
    have hbreak : Text.breakOn ['>'] (certName ++ (tail ++ '>' :: content)) =
        some (certName ++ tail, content) :=
      Cuts.breakOn_eq_some_iff.2 ⟨by simp, htagEnd⟩
    rw [hown, ← htag] at hopen
    have hsealed : Sealed bodyStart := by
      have htoken := sealed_token false n hy inBlock
      rw [hown] at htoken
      rw [← hstart]
      simpa using htoken
    have hclose : Scanning.next (isClose certName) bodyStart content =
        some (bodyStart ++ s ++ tokenLead true n, certName ++ '>' :: h) := by
      have hat : isClose certName (bodyStart ++ s ++ tokenLead true n) (certName ++ '>' :: h) = true := by
        rw [isClose_at certName_valid certName_valid (by decide), closes_lead, beq_self_eq_true]
        rfl
      rw [← hcontent, Scanning.next_clear (clear_close_sealed hsealed hs certName _),
        Scanning.next_clear (clear_close_lead certName_valid certName_ne n _ _),
        Scanning.next_here (List.append_ne_nil_of_left_ne_nil certName_ne _) hat]
    have hplain : ∀ c ∈ '/' :: n.lead, (c == '<') = false := by
      intro c hc
      rw [beq_eq_false_iff_ne]
      rintro rfl
      rcases List.mem_cons.1 hc with hc | hc
      · exact absurd hc (by decide)
      · exact not_angle_lead n hc
    have hbody : Cuts.beforeLast (· == '<') (s ++ tokenLead true n) = s :=
      Cuts.beforeLast_append_sep hplain rfl
    unfold certStep
    rw [Scanning.next_clear (clear_lead certName_valid certName_ne false n inBlock _),
      Scanning.next_here (List.append_ne_nil_of_left_ne_nil certName_ne _) hopen]
    dsimp only
    rw [hbreak]
    dsimp only
    rw [hstart, hclose]
    dsimp only
    rw [List.append_assoc bodyStart, List.drop_left, hbody, List.drop_left, List.append_assoc bodyStart]
  have hend : Clear (isOpen certName) (bodyStart ++ s ++ tokenLead true n ++ certName) ['>'] h := by
    have hbehind := clear_behind_name true n behind_end certName (bodyStart ++ s) h
    rwa [hown] at hbehind
  have hlast : bodies (bodyStart ++ s ++ tokenLead true n ++ certName) ('>' :: h) =
      bodies (bodyStart ++ s ++ tokenLead true n ++ certName ++ ['>']) h := bodies_clear hend
  rw [bodies_some hstep, hlast, ← hstart]
  simp

end Steps

/-! ## The scanner over a document -/

section Documents

variable {reading reading' reading'' : Bool} {text text' : Text} {certs certs' : List Text}

/-- Over the text the scanner reads the certificates, whatever follows. -/
def Scans (reading : Bool) (text : Text) (certs : List Text) (reading' : Bool) : Prop :=
  ∀ before inBlock, Sealed before → Sealed inBlock → Sealed (before ++ text) ∧
    ∃ inBlock', Sealed inBlock' ∧ ∀ rest, reads reading inBlock before (text ++ rest) =
      certs ++ reads reading' inBlock' (before ++ text) rest

theorem scans_nil (reading : Bool) : Scans reading [] [] reading := by
  intro before inBlock hB hb
  refine ⟨?_, inBlock, hb, fun rest => ?_⟩
  · rwa [List.append_nil]
  · rw [List.append_nil]
    rfl

theorem Scans.append (h : Scans reading text certs reading') (h' : Scans reading' text' certs' reading'') :
    Scans reading (text ++ text') (certs ++ certs') reading'' := by
  intro before inBlock hB hb
  obtain ⟨hB', inBlock', hb', hreads⟩ := h before inBlock hB hb
  obtain ⟨hB'', inBlock'', hb'', hreads'⟩ := h' (before ++ text) inBlock' hB' hb'
  rw [List.append_assoc] at hB''
  refine ⟨hB'', inBlock'', hb'', fun rest => ?_⟩
  rw [List.append_assoc, hreads, hreads', List.append_assoc, List.append_assoc]

/-- Over a text of which nothing is read. -/
theorem Scans.behind (h : Scans reading text [] reading') (h' : Scans reading' text' certs' reading'') :
    Scans reading (text ++ text') certs' reading'' := h.append h'

theorem scans_data (reading : Bool) (data : CharData) : Scans reading data.chars [] reading := by
  intro before inBlock hB hb
  have hangle : '<' ∉ data.chars := by
    intro hmem
    exact absurd (List.all_eq_true.1 data.valid _ hmem) (by decide)
  refine ⟨hB.append hangle, inBlock ++ data.chars, hb.append hangle, fun rest => ?_⟩
  exact reads_clear (clear_sealed hB hangle _ rest) (fun _ r => clear_sealed hb hangle _ r)

theorem Name.isDescriptor_iff {name : Name} :
    name.isDescriptor = true ↔ name.localPart.chars = descriptorName := beq_iff_eq

theorem Name.isCert_iff {name : Name} : name.isCert = true ↔ name.localPart.chars = certName := beq_iff_eq

/-- A tag moves the scanner into its block, or not at all. -/
theorem scans_tag (tag : Tag) (selfClosing : Bool) (hcert : reading = true → tag.name.isCert = false) :
    Scans reading (tag.print selfClosing) [] (tag.started selfClosing reading) := by
  intro before inBlock hB hb
  have hy := behind_tag tag selfClosing
  rw [tag.print_eq]
  refine ⟨sealed_token false tag.name hy before, ?_⟩
  cases hown : tag.name.isDescriptor with
  | true =>
    have hangle : '<' ∉ tag.name.localPart.chars ++ (tag.tail ++ tagEnd selfClosing) := fun hmem =>
      (List.mem_append.1 hmem).elim (not_angle_of_valid tag.name.localPart.valid) hy.angle
    refine ⟨_, sealed_of_not_mem hangle, fun rest => ?_⟩
    rw [reads_token_mark hB false hy (Name.isDescriptor_iff.1 hown) rfl, Tag.started, if_pos hown]
    rfl
  | false =>
    refine ⟨_, sealed_token false tag.name hy inBlock, fun rest => ?_⟩
    rw [reads_token hB hb false hy, Tag.started, hown, if_neg Bool.false_ne_true]
    · rfl
    · intro hchars
      rw [Name.isDescriptor_iff.2 hchars] at hown
      exact nomatch hown
    · intro hreading hchars
      exact absurd ((Name.isCert_iff.2 hchars).symm.trans (hcert hreading)) (by decide)

theorem isEncryption_descriptorName :
    isEncryption (Cuts.before (· == '>') (descriptorName ++ ['>'])) = false := by decide

/-- An end tag moves it as well if it has a namespace. -/
theorem scans_end (name : Name) (hcert : reading = true → name.isCert = true → name.space.isSome = false) :
    Scans reading name.printEnd [] (name.ended reading) := by
  intro before inBlock hB hb
  rw [name.printEnd_eq]
  refine ⟨sealed_token true name behind_end before, ?_⟩
  cases hown : name.isDescriptor && name.space.isSome with
  | true =>
    rw [Bool.and_eq_true] at hown
    have hchars := Name.isDescriptor_iff.1 hown.1
    have hangle : '<' ∉ name.localPart.chars ++ ['>'] := by
      rw [hchars]
      decide
    refine ⟨_, sealed_of_not_mem hangle, fun rest => ?_⟩
    rw [reads_token_mark hB true behind_end hchars (by rw [hown.2]; rfl), hchars,
      isEncryption_descriptorName, Name.ended, hown.1, hown.2, Bool.and_self, Bool.or_true]
    rfl
  | false =>
    refine ⟨_, sealed_token true name behind_end inBlock, fun rest => ?_⟩
    rw [reads_token hB hb true behind_end, Name.ended, hown, Bool.or_false]
    · rfl
    · intro hchars
      rwa [Name.isDescriptor_iff.2 hchars] at hown
    · exact fun hreading hchars => hcert hreading (Name.isCert_iff.2 hchars)

theorem Content.print_of_isCharData {content : Content} (h : content.isCharData = true) :
    content.print = content.chars ∧ '<' ∉ content.chars := by
  induction content with
  | nil => exact ⟨rfl, List.not_mem_nil⟩
  | text data rest ih =>
    obtain ⟨hprint, hangle⟩ := ih h
    refine ⟨?_, fun hmem => ?_⟩
    · rw [Content.print, Content.chars, hprint]
    · rcases List.mem_append.1 hmem with hmem | hmem
      · exact absurd (List.all_eq_true.1 data.valid _ hmem) (by decide)
      · exact hangle hmem
  | empty tag rest ih | element tag children rest ihc ih => exact nomatch h

theorem Content.readingAfter_element (reading : Bool) (tag : Tag) (children rest : Content) :
    readingAfter reading (element tag children rest) =
      readingAfter (tag.name.ended (readingAfter (tag.started false reading) children)) rest := by
  unfold readingAfter
  rw [marks, List.foldl_cons, List.foldl_append, List.foldl_cons]
  rfl

theorem Content.reading_of_isCharData {content : Content} (h : content.isCharData = true) (reading : Bool) :
    content.readingAfter reading = reading ∧ content.certsRead reading = [] := by
  induction content with
  | nil => exact ⟨rfl, rfl⟩
  | text data rest ih => exact ih h
  | empty tag rest ih | element tag children rest ihc ih => exact nomatch h

/-- A certificate that is read is read whole. -/
theorem scans_cert (tag : Tag) {children : Content} (hown : tag.name.isCert = true)
    (hchildren : children.isCharData = true) (htail : '>' ∉ tag.tail) :
    Scans true (tag.print false ++ (children.print ++ tag.name.printEnd))
      [withoutWhitespace children.chars] true := by
  intro before inBlock hB hb
  obtain ⟨hprint, hangle⟩ := Content.print_of_isCharData hchildren
  have hchars := Name.isCert_iff.1 hown
  have hother : ∀ stop : Bool, tag.name.localPart.chars = descriptorName →
      (!stop || tag.name.space.isSome) = false :=
    fun stop heq => absurd (hchars.symm.trans heq) certName_ne_descriptorName
  have hy : Behind (tag.tail ++ ['>']) := behind_tag tag false
  rw [hprint, tag.print_eq, tag.name.printEnd_eq]
  have hsealed : ∀ u, Sealed u → Sealed (u ++ (tokenLead false tag.name ++ (tag.name.localPart.chars ++
      (tag.tail ++ tagEnd false)) ++ (children.chars ++
        (tokenLead true tag.name ++ (tag.name.localPart.chars ++ ['>']))))) := by
    intro u hu
    have hend := sealed_token true tag.name behind_end
      (u ++ (tokenLead false tag.name ++ (tag.name.localPart.chars ++ (tag.tail ++ tagEnd false))) ++
        children.chars)
    simpa using hend
  refine ⟨hsealed before hB, _, hsealed inBlock hb, fun rest => ?_⟩
  have hblocks : Clear (isOpen descriptorName) before (tokenLead false tag.name ++
      (tag.name.localPart.chars ++ (tag.tail ++ tagEnd false)) ++ (children.chars ++
        (tokenLead true tag.name ++ (tag.name.localPart.chars ++ ['>'])))) rest := by
    have hbody := sealed_token false tag.name hy before
    refine Clear.append (clear_token descriptorName_valid descriptorName_ne hB false tag.name hy
      (hother false) _) ?_
    refine Clear.append (clear_sealed hbody hangle descriptorName _) ?_
    exact clear_token descriptorName_valid descriptorName_ne (hbody.append hangle) true tag.name behind_end
      (hother true) rest
  have hbodies := bodies_cert hb hy htail hangle hchars
  unfold reads blocksFrom
  rw [Scanning.pieces_clear hblocks, if_pos rfl, if_pos rfl]
  dsimp only
  rw [hchars]
  have hcert := hbodies (Scanning.pieces (isOpen descriptorName) (before ++ (tokenLead false tag.name ++
    (certName ++ (tag.tail ++ tagEnd false)) ++ (children.chars ++
      (tokenLead true tag.name ++ (certName ++ ['>']))))) rest).1
  rw [← List.append_assoc [_], List.singleton_append]
  congr 1
  simpa [tagEnd] using hcert

theorem scans_content (doc : Content) (hplain : doc.plainFrom reading = true) :
    Scans reading doc.print (doc.certsRead reading) (doc.readingAfter reading) := by
  induction doc generalizing reading with
  | nil => exact scans_nil reading
  | text data rest ih => exact (scans_data reading data).behind (ih hplain)
  | empty tag rest ih =>
    rw [Content.plainFrom, Bool.and_eq_true] at hplain
    obtain ⟨hcert, hrest⟩ := hplain
    refine (scans_tag tag true ?_).behind (ih hrest)
    intro hreading
    rw [hreading, Bool.true_and, Bool.not_eq_true'] at hcert
    exact hcert
  | element tag children rest ihc ih =>
    rw [Content.plainFrom, Bool.and_eq_true, Bool.and_eq_true] at hplain
    obtain ⟨hcert, hchildren, hrest⟩ := hplain
    rw [Content.print, Content.certsRead, Content.readingAfter_element]
    cases hown : tag.name.isCert with
    | false =>
      rw [Bool.and_false, if_neg Bool.false_ne_true]
      refine (scans_tag tag false (fun _ => hown)).behind ((ihc hchildren).append (.behind ?_ (ih hrest)))
      exact scans_end tag.name (fun _ hcert => absurd (hown.symm.trans hcert) Bool.false_ne_true)
    | true =>
      rw [hown, Bool.not_true, Bool.false_or] at hcert
      cases reading with
      | false =>
        -- a certificate that is not read has tags as any other element
        rw [Bool.false_and, if_neg Bool.false_ne_true]
        have htag : Scans false (tag.print false) [] (tag.started false false) :=
          scans_tag tag false (fun h => absurd h Bool.false_ne_true)
        refine htag.behind ((ihc hchildren).append (.behind ?_ (ih hrest)))
        refine scans_end tag.name (fun hafter _ => ?_)
        rw [if_neg Bool.false_ne_true, hafter, Bool.not_true, Bool.or_false,
          Option.isNone_iff_eq_none] at hcert
        rw [hcert]
        rfl
      | true =>
        rw [if_pos rfl, Bool.and_eq_true, Bool.not_eq_true', ← Bool.not_eq_true,
          List.contains_iff_mem] at hcert
        obtain ⟨hdata, htail⟩ := hcert
        have hother : tag.name.isDescriptor = false := by
          rw [Name.isDescriptor, Name.isCert_iff.1 hown]
          exact beq_eq_false_iff_ne.2 certName_ne_descriptorName
        have hstarted : tag.started false true = true := by
          rw [Tag.started, hother, if_neg Bool.false_ne_true]
        obtain ⟨hafter, hnone⟩ := Content.reading_of_isCharData hdata true
        have hended : tag.name.ended true = true := Bool.true_or _
        rw [hstarted, hafter, hended] at hrest ⊢
        have hrun := (scans_cert tag hown hdata htail).append (ih hrest)
        rw [hnone]
        simpa using hrun

/-! ## What is reported -/

theorem push_reported (certs : List Text) (cert : Text) :
    push (reported certs) cert = reported (certs ++ [cert]) := by
  unfold reported
  rw [List.filter_append, List.eraseDups_append]
  cases cert with
  | nil => simp [push]
  | cons c cert =>
    have hmem : List.contains (certs.filter (fun cert => !cert.isEmpty)).eraseDups (c :: cert) =
        List.contains (certs.filter (fun cert => !cert.isEmpty)) (c :: cert) := by
      rw [Bool.eq_iff_iff, List.contains_iff_mem, List.contains_iff_mem, List.mem_eraseDups]
    have hone : [c :: cert].filter (fun cert => !cert.isEmpty) = [c :: cert] := rfl
    rw [hone, List.cons_removeAll, List.nil_removeAll]
    unfold push
    rw [hmem]
    cases List.contains (certs.filter (fun cert => !cert.isEmpty)) (c :: cert) with
    | true => simp
    | false => simp [List.eraseDups_cons]

/-- The bodies are reported once, in their order. -/
theorem foldl_push (certs : List Text) : certs.foldl push [] = reported certs := by
  induction certs using List.reverseRecOn with
  | nil => rfl
  | append_singleton certs cert ih => rw [List.foldl_concat, ih, push_reported]

/-- Where each certificate is read whole, those that are read are reported. -/
theorem parseSigningCerts_print {doc : Content} (hplain : doc.plainFrom false = true) :
    parseSigningCerts doc.print = .ok (reported (doc.certsRead false)) := by
  obtain ⟨-, inBlock, -, hreads⟩ := scans_content doc hplain [] [] (sealed_of_not_mem List.not_mem_nil)
    (sealed_of_not_mem List.not_mem_nil)
  have hall := hreads []
  have hend : reads (doc.readingAfter false) inBlock ([] ++ doc.print) [] = [] := by
    unfold reads
    simp [blocksFrom, Scanning.pieces, bodies_nil]
  rw [List.append_nil, hend, List.append_nil] at hall
  rw [parseSigningCerts_reads, hall, foldl_push]

end Documents

/-! ## Where the certificates stand -/

section Places

variable {before : List Mark}

theorem isEncryption_iff (m : Mark) :
    isEncryption (Cuts.before (· == '>') m.text) = true ↔ m.SpellsEncryption := by
  unfold isEncryption
  rw [Bool.or_eq_true, Text.contains_iff, Text.contains_iff]
  constructor
  · rintro (h | h)
    · exact ⟨.double, h⟩
    · exact ⟨.single, h⟩
  · rintro ⟨quote, h⟩
    cases quote with
    | double => exact .inl h
    | single => exact .inr h

theorem behindSigning_snoc (m : Mark) : BehindSigning (before ++ [m]) ↔
    if m.begins = true then ¬ m.SpellsEncryption else BehindSigning before := by
  constructor
  · rintro ⟨far, m', near, heq, hbegins, hspells, hnear⟩
    rcases List.eq_nil_or_concat near with rfl | ⟨near, x, rfl⟩
    · obtain ⟨-, hm⟩ := List.append_inj' heq rfl
      obtain rfl := List.singleton_inj.1 hm
      rwa [if_pos hbegins]
    · rw [List.concat_eq_append, ← List.cons_append, ← List.append_assoc] at heq
      obtain ⟨rfl, hm⟩ := List.append_inj' heq rfl
      obtain rfl := List.singleton_inj.1 hm
      rw [if_neg (by simp [hnear m])]
      exact ⟨far, m', near, rfl, hbegins, hspells, fun y hy => hnear y (by simp [hy])⟩
  · intro h
    split at h
    · next hbegins => exact ⟨before, m, [], rfl, hbegins, h, by simp⟩
    · next hnot =>
      obtain ⟨far, m', near, rfl, hbegins, hspells, hnear⟩ := h
      refine ⟨far, m', near ++ [m], by simp, hbegins, hspells, fun y hy => ?_⟩
      rcases List.mem_append.1 hy with hy | hy
      · exact hnear y hy
      · rw [List.mem_singleton.1 hy]
        exact Bool.eq_false_iff.2 hnot

/-- The scanner reads behind the last descriptor tag, or end tag with a namespace, that does not spell
    `encryption`. -/
theorem isReading_iff : isReading before = true ↔ BehindSigning before := by
  induction before using List.reverseRecOn with
  | nil =>
    refine iff_of_false Bool.false_ne_true ?_
    rintro ⟨far, m, near, heq, -⟩
    exact absurd heq (by simp)
  | append_singleton before m ih =>
    rw [behindSigning_snoc, ← ih, ← isEncryption_iff, isReading, List.foldl_append]
    cases m with
    | tag tag selfClosing =>
      show tag.started selfClosing (isReading before) = true ↔
        if tag.name.isDescriptor = true then _ else _
      unfold Tag.started
      split
      · rw [Bool.not_eq_true', Bool.not_eq_true]
        rfl
      · exact Iff.rfl
    | stop name =>
      show name.ended (isReading before) = true ↔
        if (name.isDescriptor && name.space.isSome) = true then _ else _
      unfold Name.ended
      split
      · next hown =>
        have hchars := Name.isDescriptor_iff.1 (Bool.and_eq_true_iff.1 hown).1
        rw [hown, Bool.or_true, Mark.text, hchars, isEncryption_descriptorName]
        simp
      · next hown =>
        rw [Bool.not_eq_true] at hown
        rw [hown, Bool.or_false]

theorem isReading_append (before after : List Mark) :
    isReading (before ++ after) = after.foldl Mark.readsOn (isReading before) := List.foldl_append

theorem Content.legible_iff (doc : Content) (before : List Mark) :
    doc.Legible before ↔ doc.plainFrom (isReading before) = true := by
  induction doc generalizing before with
  | nil => exact iff_of_true trivial rfl
  | text data rest ih => exact ih before
  | empty tag rest ih =>
    unfold Legible plainFrom
    rw [ih, ← isReading_iff, isReading_append]
    cases isReading before <;> simp [Mark.readsOn]
  | element tag children rest ihc ih =>
    unfold Legible plainFrom
    rw [ihc, ih, ← isReading_iff, ← isReading_iff, isReading_append, isReading_append, isReading_append]
    cases isReading before <;> cases tag.name.isCert <;>
      simp [Mark.readsOn, readingAfter, imp_iff_not_or]

theorem Content.certsRead_eq (doc : Content) (before : List Mark) (inside : Bool) :
    doc.certsRead (isReading before) =
      ((doc.certificates before inside).filter (fun c => isReading c.before)).map Certificate.text := by
  induction doc generalizing before inside with
  | nil => rfl
  | text data rest ih => exact ih before inside
  | empty tag rest ih =>
    have hrest := ih (before ++ [.tag tag true]) inside
    rwa [isReading_append] at hrest
  | element tag children rest ihc ih =>
    have hchildren := ihc (before ++ [.tag tag false]) (inside || tag.isSigning)
    have hrest := ih (before ++ .tag tag false :: (marks children ++ [.stop tag.name])) inside
    rw [isReading_append] at hchildren hrest
    rw [List.foldl_cons, List.foldl_append] at hrest
    rw [certsRead, certificates, List.filter_append, List.filter_append, List.map_append,
      List.map_append, ← hchildren, ← hrest]
    congr 1
    cases hreading : isReading before <;> cases tag.name.isCert <;> simp [hreading]

theorem Content.certsWithin_eq (doc : Content) (before : List Mark) (inside : Bool) :
    doc.certsWithin inside =
      ((doc.certificates before inside).filter Certificate.inside).map Certificate.text := by
  induction doc generalizing before inside with
  | nil => rfl
  | text data rest ih => exact ih before inside
  | empty tag rest ih => exact ih _ inside
  | element tag children rest ihc ih =>
    rw [certsWithin, certificates, ihc (before ++ [.tag tag false]),
      ih (before ++ .tag tag false :: (marks children ++ [.stop tag.name])),
      List.filter_append, List.filter_append, List.map_append, List.map_append]
    congr 1
    cases inside <;> cases tag.name.isCert <;> rfl

theorem reported_of_certificates (l : List Certificate) (p : Certificate → Bool) :
    reported ((l.filter p).map Certificate.text) =
      (((l.filter (fun c => !c.text.isEmpty)).filter p).map Certificate.text).eraseDups := by
  unfold reported
  rw [List.filter_map, List.filter_filter, List.filter_filter]
  simp only [Function.comp_def, Bool.and_comm]

theorem Content.reported_certsRead (doc : Content) : reported (doc.certsRead false) =
    ((doc.listed.filter (fun c => isReading c.before)).map Certificate.text).eraseDups := by
  have hread := doc.certsRead_eq [] false
  rw [show isReading [] = false from rfl] at hread
  rw [hread, reported_of_certificates]
  rfl

theorem Content.published_eq (doc : Content) :
    doc.published = ((doc.listed.filter Certificate.inside).map Certificate.text).eraseDups := by
  rw [published, doc.certsWithin_eq [] false, reported_of_certificates]
  rfl

/-- If each certificate is read exactly where it is within a signing descriptor. -/
theorem reported_of_agree {doc : Content} (h : ∀ c ∈ doc.listed, (BehindSigning c.before ↔ c.inside = true)) :
    reported (doc.certsRead false) = doc.published := by
  rw [doc.reported_certsRead, doc.published_eq, List.filter_congr (fun c hc => ?_)]
  exact Bool.eq_iff_iff.2 (isReading_iff.trans (h c hc))

/-- And for certificates that do not repeat only then. -/
theorem agree_of_reported {doc : Content} (hdistinct : (doc.listed.map Certificate.text).Nodup)
    (h : reported (doc.certsRead false) = doc.published) :
    ∀ c ∈ doc.listed, (BehindSigning c.before ↔ c.inside = true) := by
  have hmem : ∀ p : Certificate → Bool, ∀ c ∈ doc.listed,
      c.text ∈ ((doc.listed.filter p).map Certificate.text).eraseDups ↔ p c = true := by
    intro p c hc
    rw [List.mem_eraseDups, List.mem_map]
    constructor
    · rintro ⟨c', hc', heq⟩
      rw [List.mem_filter] at hc'
      obtain rfl := List.inj_on_of_nodup_map hdistinct hc'.1 hc heq
      exact hc'.2
    · exact fun hp => ⟨c, List.mem_filter.2 ⟨hc, hp⟩, rfl⟩
  rw [doc.reported_certsRead, doc.published_eq] at h
  intro c hc
  have hread := hmem (fun c => isReading c.before) c hc
  rw [h, hmem Certificate.inside c hc, isReading_iff] at hread
  exact hread.symm

/-- No text makes the scanner panic or run forever. Of a legible document it reports the published
certificates if each certificate is within a signing descriptor exactly where the last descriptor tag
before it spells no `encryption`; and if the certificates are distinct then only if so. -/
theorem parseSigningCerts_eq_published_iff (xml : Text) {doc : Content} (hlegible : doc.Legible []) :
    (∃ certs, parseSigningCerts xml = .ok certs) ∧
      ((∀ c ∈ doc.listed, (BehindSigning c.before ↔ c.inside = true)) →
        parseSigningCerts doc.print = .ok doc.published) ∧
      ((doc.listed.map Certificate.text).Nodup →
        (parseSigningCerts doc.print = .ok doc.published ↔
          ∀ c ∈ doc.listed, (BehindSigning c.before ↔ c.inside = true))) := by
  have hprint := parseSigningCerts_print ((doc.legible_iff []).1 hlegible)
  have hiff : parseSigningCerts doc.print = .ok doc.published ↔
      reported (doc.certsRead false) = doc.published := by
    rw [hprint]
    exact ⟨Except.ok.inj, congrArg _⟩
  refine ⟨⟨_, parseSigningCerts_reads xml⟩, fun h => hiff.2 (reported_of_agree h), fun hdistinct => ?_⟩
  exact hiff.trans ⟨agree_of_reported hdistinct, reported_of_agree⟩

end Places

/-! ## Two documents -/

section Samples

theorem nonempty_of_name {chars : Text} (h : (!chars.isEmpty && chars.all isNameChar) = true) :
    chars ≠ [] := by
  rintro rfl
  exact Bool.false_ne_true h

theorem valid_of_name {chars : Text} (h : (!chars.isEmpty && chars.all isNameChar) = true) :
    chars.all isNameChar = true := (Bool.and_eq_true_iff.1 h).2

def namePart (chars : Text) (h : (!chars.isEmpty && chars.all isNameChar) = true) : NamePart :=
  ⟨chars, nonempty_of_name h, valid_of_name h⟩

theorem isBlank_space : isBlank [' '] = true := by decide

def noBlank : Blank := ⟨[], rfl⟩

def oneBlank : Blank := ⟨[' '], isBlank_space⟩

def useAttribute (blank : Blank) (value : Text)
    (h : value.all (fun c => c != '<' && c != Quote.double.char) = true) : Attribute :=
  ⟨oneBlank, List.cons_ne_nil _ _, ⟨none, namePart "use".toList (by decide)⟩, blank, blank, .double, value, h⟩

def descriptorTag (space : Option NamePart) (attrs : List Attribute) : Tag :=
  ⟨⟨space, namePart descriptorName (by decide)⟩, attrs, noBlank⟩

def certTag (space : Option NamePart) : Tag := ⟨⟨space, namePart certName (by decide)⟩, [], noBlank⟩

def certElement (space : Option NamePart) (data : CharData) : Content :=
  .element (certTag space) (.text data .nil) .nil

def encryptionUse (blank : Blank) : Attribute := useAttribute blank "encryption".toList (by decide)

def metadataSpace : NamePart := namePart "md".toList (by decide)

def firstCert : CharData := ⟨"AAAA".toList, by decide⟩

def secondCert : CharData := ⟨"BBBB".toList, by decide⟩

/-- A descriptor of each use, with a certificate each. -/
def bothUses : Content :=
  .element (descriptorTag (some metadataSpace) []) (certElement none firstCert)
    (.element (descriptorTag (some metadataSpace) [encryptionUse noBlank]) (certElement none secondCert) .nil)

/-- Blanks around the `=` of the attribute. -/
def spacedUse : Content :=
  .element (descriptorTag none [encryptionUse oneBlank]) (certElement none secondCert) .nil

/-- A certificate behind the end of the descriptor. -/
def behindDescriptor : Content :=
  .element (descriptorTag (some metadataSpace) [encryptionUse noBlank]) .nil (certElement none secondCert)

example : spacedUse.print =
    "<KeyDescriptor use = \"encryption\"><X509Certificate>BBBB</X509Certificate></KeyDescriptor>".toList := by
  decide

theorem published_bothUses :
    (∃ certs, parseSigningCerts "<KeyDescriptor".toList = .ok certs) ∧
      parseSigningCerts bothUses.print = .ok bothUses.published ∧ bothUses.published = ["AAAA".toList] := by
  have hlegible : bothUses.Legible [] := (bothUses.legible_iff []).2 (by decide)
  have hread : ∀ c ∈ bothUses.listed, isReading c.before = c.inside := by decide
  obtain ⟨hends, hagree, -⟩ := parseSigningCerts_eq_published_iff "<KeyDescriptor".toList hlegible
  refine ⟨hends, hagree (fun c hc => ?_), by decide⟩
  rw [← isReading_iff, hread c hc]

/-- Neither document publishes a certificate for signing, and the one for encryption is reported of both. -/
theorem encryption_cert_reported :
    (spacedUse.published = [] ∧ parseSigningCerts spacedUse.print = .ok ["BBBB".toList]) ∧
      behindDescriptor.published = [] ∧ parseSigningCerts behindDescriptor.print = .ok ["BBBB".toList] := by
  have hspaced : reported (spacedUse.certsRead false) = ["BBBB".toList] := by decide
  have hbehind : reported (behindDescriptor.certsRead false) = ["BBBB".toList] := by decide
  refine ⟨⟨by decide, ?_⟩, by decide, ?_⟩
  · rw [parseSigningCerts_print (by decide), hspaced]
  · rw [parseSigningCerts_print (by decide), hbehind]

end Samples

end Metadata
