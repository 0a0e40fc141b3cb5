import StyleScaffold.Design.Link
import StyleScaffold.Proofs.Text.Percent
import StyleScaffold.Proofs.Text.Pieces
import StyleScaffold.Proofs.Text.Trim

/-!
# Links that name a node

A link names a node by a parameter of its query. The search for it stops at the first question
mark or ampersand with the name of the parameter and a value behind it
(`nodeParameter?_separator`), so it passes over parameters of other names
(`firstMatch_nodeParameter?_query`). A link that a design is shared by is read back
(`ShareLink.parse?_text`): identifiers are written with hyphens for their colons and
percent-encoded, and decoding comes before the hyphens are taken back.
-/

namespace StyleScaffold.Design.Link

open Text

/-! ## The parameter for the node -/

/-- Whether a value of a query goes on with the character. -/
def isValueChar (c : CodePoint) : Bool := c ≠ '&' && c ≠ '#'

/-- Whether a parameter of a query may start behind the character. -/
def isSeparator (c : CodePoint) : Bool := c = '?' || c = '&'

theorem nodeParameter?_of_not_separator {c : CodePoint} (h : isSeparator c = false) (s : Text) :
    nodeParameter? (c :: s) = none := by
  rw [isSeparator] at h
  rw [nodeParameter?, h]
  rfl

theorem nodeParameter?_separator {c : CodePoint} (h : isSeparator c = true) (s : Text) :
    nodeParameter? (c :: s) =
      (strip? "node-id=" s).bind fun rest => (run? isValueChar rest).map Prod.fst := by
  rw [isSeparator] at h
  rw [nodeParameter?, if_pos h]
  rfl

/-- A value is read up to the end of the parameter. -/
theorem nodeParameter?_written {c : CodePoint} (h : isSeparator c = true) {value rest : Text}
    (hne : value ≠ []) (hValue : ∀ d ∈ value, isValueChar d = true)
    (hRest : ∀ d ∈ rest.head?, isValueChar d = false) :
    nodeParameter? (c :: ("node-id=" ++ (value ++ rest))) = some value := by
  rw [nodeParameter?_separator h, strip?_eq_some_iff.2 rfl, Option.bind_some,
    run?_append hne hValue hRest]
  rfl

theorem firstMatch_nodeParameter?_append {front : Text} (h : ∀ c ∈ front, isSeparator c = false)
    (s : Text) :
    firstMatch nodeParameter? (front ++ s) = firstMatch nodeParameter? s :=
  firstMatch_append (fun c hc => nodeParameter?_of_not_separator (h c hc)) s

/-- A parameter of another name is no parameter for the node. -/
theorem nodeParameter?_other {p : Text} (hName : before '=' p ≠ "node-id") (hp : (.char '&') ∉ p)
    {c : CodePoint} (t : Text) : nodeParameter? (c :: (p ++ .char '&' :: t)) = none := by
  cases h : isSeparator c with
  | false => exact nodeParameter?_of_not_separator h _
  | true =>
    have hStrip : strip? "node-id=" p = none := by
      rw [Option.eq_none_iff_forall_ne_some]
      intro rest hSome
      rw [strip?_eq_some_iff] at hSome
      subst hSome
      have hBefore : before '=' (("node-id" : Text) ++ .char '=' :: rest) = "node-id" :=
        before_append (by decide) rest
      exact hName hBefore
    rw [nodeParameter?_separator h, strip?_append_cons (by decide), hStrip]
    rfl

/-- The first parameter with the name is found among others. -/
theorem firstMatch_nodeParameter?_query {earlier : List Text}
    (hEarlier : ∀ p ∈ earlier, before '=' p ≠ "node-id" ∧ ∀ c ∈ p, isSeparator c = false)
    {value : Text} (hne : value ≠ []) (hValue : ∀ d ∈ value, isValueChar d = true)
    (later : List Text) {rest : Text} (hRest : ∀ d ∈ rest.head?, isValueChar d = false)
    {c : CodePoint} (hc : isSeparator c = true) :
    firstMatch nodeParameter?
      (c :: (join ['&'] (earlier ++ ("node-id=" ++ value) :: later) ++ rest)) = some value := by
  induction earlier generalizing c with
  | nil =>
    have hTail : ∃ tail : Text, join ['&'] (("node-id=" ++ value) :: later) ++ rest =
        "node-id=" ++ (value ++ tail) ∧ ∀ d ∈ tail.head?, isValueChar d = false := by
      cases later with
      | nil => exact ⟨rest, by rw [join_singleton, List.append_assoc], hRest⟩
      | cons p later =>
        refine ⟨.char '&' :: (join ['&'] (p :: later) ++ rest), ?_, by simp [isValueChar]⟩
        simp [join_cons_cons]
    obtain ⟨tail, hText, hHead⟩ := hTail
    rw [List.nil_append, hText]
    exact firstMatch_of_match (nodeParameter?_written hc hne hValue hHead)
  | cons p earlier ih =>
    obtain ⟨⟨hName, hPlain⟩, hEarlier⟩ := List.forall_mem_cons.1 hEarlier
    have hAmpersand : (.char '&') ∉ p := fun hMem => absurd (hPlain _ hMem) (by decide)
    rw [List.cons_append, join_cons (by simp), List.append_assoc, List.append_assoc,
      List.singleton_append, firstMatch, nodeParameter?_other hName hAmpersand]
    simp only
    rw [firstMatch_nodeParameter?_append hPlain]
    exact ih hEarlier (by decide)

/-! ## The address of a file -/

/-- The host of an address, up to the way in which the file is opened. -/
def host (www : Bool) : Text := if www then "www.figma.com/" else "figma.com/"

/-- The key is read up to the next character that cannot stand in one. -/
theorem fileKey?_address {opening key rest : Text} (www : Bool) (hOpening : opening ∈ openings)
    (hne : key ≠ []) (hKey : ∀ c ∈ key, isAsciiAlnum c = true)
    (hRest : ∀ c ∈ rest.head?, isAsciiAlnum c = false) :
    fileKey? ("https://" ++ (host www ++ (opening ++ ("/" ++ (key ++ rest))))) = some key := by
  have hRun : (run? isAsciiAlnum (key ++ rest)).map Prod.fst = some key := by
    rw [run?_append hne hKey hRest]
    rfl
  simp only [openings, List.mem_cons, List.not_mem_nil, or_false] at hOpening
  rcases hOpening with rfl | rfl | rfl <;> cases www <;> exact hRun

theorem isSeparator_host (www : Bool) : ∀ c ∈ host www, isSeparator c = false := by
  cases www <;> decide

theorem isSeparator_opening : ∀ opening ∈ openings, ∀ c ∈ opening, isSeparator c = false := by
  decide

theorem isSeparator_of_isAsciiAlnum {c : CodePoint} (h : isAsciiAlnum c = true) :
    isSeparator c = false := by
  rw [Bool.eq_false_iff]
  intro hc
  simp only [isSeparator, Bool.or_eq_true, decide_eq_true_eq] at hc
  rcases hc with rfl | rfl <;> exact absurd h (by decide)

/-! ## Links that are shared -/

/-- A link that a design is shared by: a file is named by its key, and a parameter of the query
names the node. -/
structure ShareLink where
  opening : Text
  www : Bool
  key : Text
  path : Text
  /-- The parameters in front of the one that names the node. -/
  earlier : List Text
  /-- The value of the parameter that names the node. -/
  value : Text
  /-- The parameters behind it, of which nothing is asked. -/
  later : List Text
  fragment : Option Text
  opening_mem : opening ∈ openings
  key_ne : key ≠ []
  key_alnum : ∀ c ∈ key, isAsciiAlnum c = true
  path_head : ∀ c ∈ path.head?, c = '/'
  path_plain : ∀ c ∈ path, isSeparator c = false
  earlier_plain : ∀ p ∈ earlier, before '=' p ≠ "node-id" ∧ ∀ c ∈ p, isSeparator c = false
  value_plain : ∀ c ∈ value, isValueChar c = true

namespace ShareLink

def query (link : ShareLink) : Text :=
  join ['&'] (link.earlier ++ ("node-id=" ++ link.value) :: link.later)

def fragmentText (link : ShareLink) : Text := (link.fragment.map (.char '#' :: ·)).getD []

/-- What comes behind the key. -/
def tail (link : ShareLink) : Text :=
  link.path ++ .char '?' :: (link.query ++ link.fragmentText)

def text (link : ShareLink) : Text :=
  "https://" ++ (host link.www ++ (link.opening ++ ("/" ++ (link.key ++ link.tail))))

/-- The key is followed by the path or by the query. -/
theorem tail_eq (link : ShareLink) :
    ∃ c rest, link.tail = c :: rest ∧ isAsciiAlnum c = false ∧ isBlank c = false := by
  unfold tail
  cases hPath : link.path with
  | nil => exact ⟨.char '?', _, rfl, by decide, by decide⟩
  | cons c path =>
    obtain rfl : c = '/' := link.path_head c (by rw [hPath]; rfl)
    exact ⟨.char '/', _, rfl, by decide, by decide⟩

end ShareLink

/-- Only blanks behind the key are trimmed, and not the character that ends it. -/
theorem ShareLink.fileKey?_trim_text (link : ShareLink) :
    fileKey? (trim link.text) = some link.key := by
  obtain ⟨c, rest, hTail, hAlnum, hBlank⟩ := link.tail_eq
  have hFront : Trimmed
      ("https://" ++ (host link.www ++ (link.opening ++ ("/" ++ (link.key ++ [c]))))) :=
    { head := fun d hd => by
        cases hd
        decide
      last := fun d hd => by
        simp only [← List.append_assoc, List.getLast?_concat] at hd
        cases hd
        exact hBlank }
  obtain ⟨v, hv⟩ := hFront.exists_trim_append (List.cons_ne_nil _ _) rest
  have hText : link.text =
      "https://" ++ (host link.www ++ (link.opening ++ ("/" ++ (link.key ++ [c])))) ++ rest := by
    simp [text, hTail]
  have hHead : ∀ d ∈ ([c] ++ v).head?, isAsciiAlnum d = false := by
    rintro d ⟨⟩
    exact hAlnum
  rw [hText, hv]
  simp only [List.append_assoc]
  exact fileKey?_address link.www link.opening_mem link.key_ne link.key_alnum hHead

namespace ShareLink

/-- What stands in front of the query. -/
def front (link : ShareLink) : Text :=
  "https://" ++ (host link.www ++ (link.opening ++ ("/" ++ (link.key ++ link.path))))

theorem text_eq (link : ShareLink) :
    link.text = link.front ++ .char '?' :: (link.query ++ link.fragmentText) := by
  simp [text, tail, front]

/-- Neither the address nor the path has the start of a parameter. -/
theorem isSeparator_front (link : ShareLink) : ∀ c ∈ link.front, isSeparator c = false := by
  have hLiteral : ∀ c ∈ ("https://" ++ "/" : Text), isSeparator c = false := by decide
  simp only [front, List.mem_append] at hLiteral ⊢
  rintro c (hc | hc | hc | hc | hc | hc)
  · exact hLiteral c (.inl hc)
  · exact isSeparator_host link.www c hc
  · exact isSeparator_opening _ link.opening_mem c hc
  · exact hLiteral c (.inr hc)
  · exact isSeparator_of_isAsciiAlnum (link.key_alnum c hc)
  · exact link.path_plain c hc

theorem head_fragmentText (link : ShareLink) :
    ∀ c ∈ link.fragmentText.head?, isValueChar c = false := by
  unfold fragmentText
  cases link.fragment with
  | none => exact fun _ hc => nomatch hc
  | some fragment =>
    rintro c ⟨⟩
    rfl

theorem firstMatch_text (link : ShareLink) (h : link.value ≠ []) :
    firstMatch nodeParameter? link.text = some link.value := by
  rw [text_eq, firstMatch_nodeParameter?_append link.isSeparator_front]
  exact firstMatch_nodeParameter?_query link.earlier_plain h link.value_plain link.later
    link.head_fragmentText (by decide)

end ShareLink

/-! ## Identifiers -/

/-- An identifier as links write it, with hyphens for its colons. -/
def hyphened (n : Text) : Text := n.map fun (c : CodePoint) => if c = ':' then '-' else c

theorem nodeIdOf_written {n value : Text} (hn : (.char '-') ∉ n)
    (h : PercentWritten (hyphened n) value) : nodeIdOf value = n := by
  rw [nodeIdOf, percentDecode_of_written h, hyphened, List.map_map]
  calc
    n.map _ = n.map id := by
      refine List.map_congr_left fun c hc => ?_
      have hHyphen : c ≠ '-' := fun h => hn (h ▸ hc)
      by_cases hColon : c = ':'
      · simp [hColon]
      · simp [hColon, hHyphen]
    _ = n := List.map_id n

theorem ne_nil_of_written {n value : Text} (hne : n ≠ []) (h : PercentWritten (hyphened n) value) :
    value ≠ [] := by
  rintro rfl
  have hDecode := percentDecode_of_written h
  rw [percentDecode] at hDecode
  exact hne (List.map_eq_nil_iff.1 hDecode.symm)

/-- **A shared link is read back**: the key it names the file by, and the identifier that its
parameter writes, in any percent-encoded form and among any other parameters. -/
theorem ShareLink.parse?_text (link : ShareLink) {n : Text} (hne : n ≠ []) (hn : (.char '-') ∉ n)
    (h : PercentWritten (hyphened n) link.value) :
    parse? link.text = some ⟨link.key, some n⟩ := by
  rw [parse?, link.fileKey?_trim_text, link.firstMatch_text (ne_nil_of_written hne h),
    Option.map_some, Option.map_some, nodeIdOf_written hn h]

theorem percentWritten_accented : PercentWritten (hyphened "1:é2") "1-%C3%A92" := by
  have hEncoded : percentEncode isNameChar (hyphened "1:é2") = "1-%C3%A92" := by decide
  rw [← hEncoded]
  exact percentWritten_percentEncode (by decide) (by decide)

/-- A link with an accented letter in the identifier, and parameters on both sides of it. -/
def accentedLink : ShareLink where
  opening := "design"
  www := true
  key := "AbC123"
  path := "/My-File"
  earlier := ["node", "t=x"]
  value := "1-%C3%A92"
  later := ["m=dev"]
  fragment := some "part"
  opening_mem := by decide
  key_ne := by decide
  key_alnum := by decide
  path_head := by decide
  path_plain := by decide
  earlier_plain := by decide
  value_plain := by decide

theorem ShareLink.parse?_text_accented :
    ("1:é2" : Text) ≠ [] ∧ (.char '-') ∉ ("1:é2" : Text) ∧
      PercentWritten (hyphened "1:é2") accentedLink.value ∧
      parse? "https://www.figma.com/design/AbC123/My-File?node&t=x&node-id=1-%C3%A92&m=dev#part" =
        some ⟨"AbC123", some "1:é2"⟩ :=
  ⟨by decide, by decide, percentWritten_accented,
    accentedLink.parse?_text (by decide) (by decide) percentWritten_accented⟩

end StyleScaffold.Design.Link
