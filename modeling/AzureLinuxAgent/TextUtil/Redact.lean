import AzureLinuxAgent.Python.Regex

/-!
# Redacting SAS tokens (`textutil.redact_sas_token`)

`SAS_TOKEN_RE` is `(https://\S+\?)((sv|st|se|sr|sp|sip|spr|sig)=\S+)+`, compiled with
`re.IGNORECASE`, and `redact_sas_token` replaces every match by its first group followed by
`<redacted>`.

The greedy `\S+` before `\?` runs to the end of the whitespace-free run and backs off to the
last `?` that a parameter follows, so the first group of a match swallows every earlier query
string of the same run. `redactSasToken_keeps_token` evaluates the code on a run with two URLs:
the first URL's `sig` survives, the output still matches the pattern, and a second pass changes
it again.
-/

namespace AzureLinuxAgent

namespace TextUtil

open Python

/-- `\S`. -/
def notSpace : Re := .set fun c => !isSpace c

/-- `(sv|st|se|sr|sp|sip|spr|sig)`. -/
def sasParam : Re :=
  Re.alts (["sv", "st", "se", "sr", "sp", "sip", "spr", "sig"].map fun w => Re.lit w.data)

/-- `SAS_TOKEN_RE`, with its three groups. -/
def sasTokenRe : Re :=
  .seq (.group 1 (.seq (Re.lit "https://".data) (.seq notSpace.plus (.char '?'))))
    (Re.plus (.group 2 (.seq (.group 3 sasParam) (.seq (.char '=') notSpace.plus))))

/-- `redact_sas_token(msg)`: `SAS_TOKEN_RE.sub(r'\1<redacted>', msg)`. -/
def redactSasToken (msg : String) : String :=
  sasTokenRe.sub true (fun d => (d.group msg.data 1).getD [] ++ "<redacted>".data) msg

/-- `SAS_TOKEN_RE` cannot match where the input does not start with `https://`. -/
lemma sasTokenRe_run_eq_nil (c : Cursor) (h : litMatch true "https://".data c.rest = none) :
    sasTokenRe.run true c = [] := by
  rw [sasTokenRe, Re.run, Re.run, run_lit_seq, h]
  rfl

/-- A message in which `https://` (in any case) occurs nowhere is left as it is. -/
lemma redactSasToken_of_no_url (msg : String)
    (h : ∀ xs, xs <:+ msg.data → litMatch true "https://".data xs = none) :
    redactSasToken msg = msg :=
  sub_eq_self true sasTokenRe _ msg fun j xs hxs => sasTokenRe_run_eq_nil ⟨j, xs, []⟩ (h xs hxs)

set_option maxRecDepth 4000 in
/-- On a whitespace-free run with two SAS URLs, the first token is kept, the output still
matches `SAS_TOKEN_RE`, and redacting again changes the output. -/
theorem redactSasToken_keeps_token :
    redactSasToken "https://a/b?sig=SECRET,https://c/d?sv=1" =
        "https://a/b?sig=SECRET,https://c/d?<redacted>" ∧
      (sasTokenRe.search true "https://a/b?sig=SECRET,https://c/d?<redacted>").isSome = true ∧
      redactSasToken "https://a/b?sig=SECRET,https://c/d?<redacted>" = "https://a/b?<redacted>" := by
  decide

end TextUtil

end AzureLinuxAgent
