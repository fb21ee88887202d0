import AzureLinuxAgent.Python.Str

/-!
# The base64 body of a PEM text (`textutil.get_bytes_from_pem`)

`get_bytes_from_pem(pem_str)` splits the text at line breaks and joins the lines that do not
contain `----`, so that the armour lines `-----BEGIN ...-----` and `-----END ...-----` go and
the base64 lines are left, without their line breaks.

## Main definitions

* `getBytesFromPem`: the function, as the source writes its loop.
* `PemDocument`: a PEM text as a value, whose fields carry what makes it well formed: armour
  lines with `----`, base64 lines without, and no line break inside a line.

## Main results

* `getBytesFromPem_intercalate`: on the lines of any text, the function joins those without
  `----`, wherever they stand.
* `getBytesFromPem_text`: the round trip; on the text of every document the function returns
  the document's base64 lines, joined.
-/

namespace AzureLinuxAgent

namespace TextUtil

open Python

/-- `get_bytes_from_pem(pem_str)`. -/
def getBytesFromPem (pemStr : String) : String :=
  (split pemStr '\n').foldl (fun base64Bytes line =>
    if !strContains line "----" then base64Bytes ++ line else base64Bytes) ""

/-- A PEM text: an armour line, base64 lines and an armour line. -/
structure PemDocument where
  /-- The line `-----BEGIN ...-----`. -/
  header : String
  /-- The base64 lines. -/
  lines : List String
  /-- The line `-----END ...-----`. -/
  footer : String
  header_armour : strContains header "----" = true
  footer_armour : strContains footer "----" = true
  lines_base64 : ∀ l ∈ lines, strContains l "----" = false
  no_newline : ∀ l ∈ header :: footer :: lines, '\n' ∉ l.data

/-- The text of a document: each line followed by a line break, as a PEM file is written. -/
def PemDocument.text (d : PemDocument) : String :=
  ⟨['\n'].intercalate ((d.header :: d.lines ++ [d.footer, ""]).map String.data)⟩

/-! ## What the loop keeps -/

lemma data_foldl_getBytesFromPem (l : List String) (acc : String) :
    (l.foldl (fun base64Bytes line =>
      if !strContains line "----" then base64Bytes ++ line else base64Bytes) acc).data =
      acc.data ++ ((l.filter fun line => !strContains line "----").map String.data).flatten := by
  induction l generalizing acc with
  | nil => simp
  | cons line l ih =>
    rw [List.foldl_cons, ih, List.filter_cons]
    by_cases h : strContains line "----" <;> simp [h]

/-- `get_bytes_from_pem` joins the lines without `----`. -/
lemma getBytesFromPem_eq (pemStr : String) :
    getBytesFromPem pemStr =
      String.join ((split pemStr '\n').filter fun line => !strContains line "----") :=
  String.ext ((data_foldl_getBytesFromPem _ "").trans (data_join _).symm)

/-- On the text of lines without line breaks, `get_bytes_from_pem` joins those of the lines that
do not contain `----`, in order. -/
lemma getBytesFromPem_intercalate (ls : List String) (hls : ls ≠ []) (hn : ∀ l ∈ ls, '\n' ∉ l.data) :
    getBytesFromPem ⟨['\n'].intercalate (ls.map String.data)⟩ =
      String.join (ls.filter fun line => !strContains line "----") := by
  have hsplit : split ⟨['\n'].intercalate (ls.map String.data)⟩ '\n' = ls := by
    rw [split, List.splitOn_intercalate _ _ (by simpa using hn) (by simpa using hls), List.map_map]
    exact List.map_id'' (fun _ => rfl) ls
  rw [getBytesFromPem_eq, hsplit]

example : getBytesFromPem "-----BEGIN KEY-----\nAbC\n--x\nd==\n-----END KEY-----\n" = "AbC--xd==" := by
  decide

/-! ## The round trip -/

/-- For every PEM document, `get_bytes_from_pem` of its text is its base64 lines, joined: the
armour goes and no base64 character is lost, moved or added. -/
theorem getBytesFromPem_text (d : PemDocument) : getBytesFromPem d.text = String.join d.lines := by
  have hkeep : (d.header :: d.lines ++ [d.footer, ""]).filter (fun line => !strContains line "----") =
      d.lines ++ [""] := by
    have hempty : strContains "" "----" = false := by decide
    simpa [List.filter_append, d.header_armour, d.footer_armour, hempty] using d.lines_base64
  have hn : ∀ l ∈ d.header :: d.lines ++ [d.footer, ""], '\n' ∉ l.data := by
    intro l hl
    simp only [List.cons_append, List.mem_cons, List.mem_append, List.not_mem_nil, or_false] at hl
    rcases hl with rfl | hl | rfl | rfl
    · exact d.no_newline _ (by simp)
    · exact d.no_newline _ (by simp [hl])
    · exact d.no_newline _ (by simp)
    · simp
  rw [PemDocument.text, getBytesFromPem_intercalate _ (by simp) hn, hkeep]
  exact String.ext (by simp [data_join])

end TextUtil

end AzureLinuxAgent
