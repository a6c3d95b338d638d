import CatFactory.Redaction.Userinfo

/-!
# What a scrub leaves behind

A scrubbed text holds no private key block, no password in a URL and no standalone
token, whatever the other rules made of the text around them.  It may hold a text that
the rules for schemes, headers and fields would cut: a token dropped by a later rule is
at times what kept a name apart from its value.
-/

namespace CatFactory
namespace Redaction

open Foundation

/-!
## Private key blocks
-/

theorem armorMarker_within (label : String)
    (hlabel : forall u, u ∈ stringUnits label -> u ≠ unitOf '[' ∧ u ≠ unitOf ']') :
    (armorMarker label).Within fun u => u ≠ unitOf '[' ∧ u ≠ unitOf ']' := by
  have harmor : forall u, isArmorUnit u = true -> u ≠ unitOf '[' ∧ u ≠ unitOf ']' := by
    intro u hu
    constructor
    · rintro rfl
      exact absurd hu (by decide)
    · rintro rfl
      exact absurd hu (by decide)
  exact ⟨within_lit (by decide), within_lit hlabel, harmor, within_lit (by decide), harmor,
    within_lit (by decide), trivial⟩

theorem local_armorMarker (label : String) : (armorMarker label).Local :=
  ⟨local_lit _, local_lit _, trivial, local_lit _, trivial, local_lit _, trivial⟩

theorem unstamped_of_armored {text : List Nat} (harmored : Armored text)
    (hbrackets : forall u, u ∈ text -> u ≠ unitOf '[' ∧ u ≠ unitOf ']') : Unstamped text := by
  constructor
  · exact hbrackets
  · rw [harmored.last]
    exact fun heq => absurd heq (by decide)
  · exact ⟨dash, List.mem_of_getLast? harmored.last, by decide⟩

theorem local_block : PEM_PRIVATE_KEY_BLOCK.Local :=
  ⟨local_armorMarker "BEGIN", trivial, local_armorMarker "END"⟩

/-- Whatever is cut, a block comes up only where a kept position had one. -/
theorem block_of_scrubs {kept : List Nat -> List Nat -> Prop}
    {cut : List Nat -> List Nat -> List Nat -> List Nat -> Prop} {xs ys : List Nat}
    (hcut : forall read a b rest, cut read a b rest -> Stamp b)
    (h : Scrubs kept cut [] xs ys [])
    (hbefore : forall front back, xs = front ++ back -> kept front.reverse back ->
      PEM_PRIVATE_KEY_BLOCK.run front.reverse back = []) :
    PEM_PRIVATE_KEY_BLOCK.Unmatched ys := by
  intro front back hsplit
  by_contra hrun
  rcases List.exists_mem_of_ne_nil _ hrun with ⟨_, hm⟩
  rcases mem_run_seq.mp hm with ⟨header, hheader, _, htail, rfl⟩
  rcases mem_run_seq.mp htail with ⟨body, hbody, footer, hfooter, rfl⟩
  have hopening : Unstamped header.text := unstamped_of_armored (armored_begin hheader)
    (accepts_within (armorMarker_within "BEGIN" (by decide)) (accepts_of_run hheader))
  have hclosing : Unstamped footer.text := unstamped_of_armored (armored_end hfooter)
    (accepts_within (armorMarker_within "END" (by decide)) (accepts_of_run hfooter))
  rw [hsplit, run_text hheader, run_text hbody, run_text hfooter] at h
  rcases h.lift (fun _ _ _ _ hhere => (hcut _ _ _ _ hhere).offStamp hopening) hopening.ne_nil with
    ⟨front', rest, rfl, _, hkept, hrest⟩
  rcases hrest.lift (fun _ _ _ _ hhere => (hcut _ _ _ _ hhere).offStamp hclosing)
    hclosing.ne_nil with ⟨body', rest', rfl, _, _, _⟩
  simp only [List.append_nil] at hkept
  have hnone := hbefore front' _ rfl hkept
  have haccepts : PEM_PRIVATE_KEY_BLOCK.Accepts
      (header.text ++ (body' ++ footer.text)) :=
    ⟨_, _, rfl, accepts_of_run hheader, body', _, rfl, fun _ _ => rfl, accepts_of_run hfooter⟩
  rcases run_of_accepts local_block haccepts front'.reverse rest' with ⟨m, hmatch, _, _⟩
  rw [List.append_assoc, List.append_assoc] at hmatch
  rw [hnone] at hmatch
  cases hmatch

theorem redactPrivateKeyBlocks_unmatched (value : List Nat) :
    PEM_PRIVATE_KEY_BLOCK.Unmatched (redactPrivateKeyBlocks value) := by
  have hscrubs : Scrubs (fun read rest => PEM_PRIVATE_KEY_BLOCK.run read rest = [])
      (fun _ _ b _ => b = REPLACEMENT) [] value (redactPrivateKeyBlocks value) [] := by
    rw [redactPrivateKeyBlocks_eq]
    apply scrubs_replaceFrom consumes_block
    · intro read rest hnone
      exact matchHere_eq_none_iff.mp hnone
    · intro read rest m _
      have hswap : Scrubs (fun read rest => PEM_PRIVATE_KEY_BLOCK.run read rest = [])
          (fun _ _ b _ => b = REPLACEMENT) read (m.text ++ []) (REPLACEMENT ++ []) m.rest :=
        Scrubs.swap rfl Scrubs.nil
      rwa [List.append_nil, List.append_nil] at hswap
  exact block_of_scrubs (fun _ _ _ _ hb => Or.inl hb) hscrubs fun _ _ _ hkept => hkept

/-!
## All rules
-/

def TOKEN_PATTERNS : List (Regex Nat) :=
  [API_KEY_PATTERN, GITHUB_TOKEN_PATTERN, GITHUB_PAT_PATTERN, SLACK_TOKEN_PATTERN,
    AWS_KEY_PATTERN, JWT_PATTERN]

theorem token_of_mem {r : Regex Nat} (h : r ∈ TOKEN_PATTERNS) : Token r ∧ Consumes r := by
  simp only [TOKEN_PATTERNS, List.mem_cons, List.not_mem_nil, or_false] at h
  rcases h with rfl | rfl | rfl | rfl | rfl | rfl
  · exact ⟨token_apiKey, consumes_of_eats rfl⟩
  · exact ⟨token_githubToken, consumes_of_eats rfl⟩
  · exact ⟨token_githubPat, consumes_of_eats rfl⟩
  · exact ⟨token_slackToken, consumes_of_eats rfl⟩
  · exact ⟨token_awsKey, consumes_of_eats rfl⟩
  · exact ⟨token_jwt, consumes_of_eats rfl⟩

/-- The text before the rules for standalone tokens. -/
def redactLabelled (value : List Nat) : List Nat :=
  fieldRule.apply (userinfoRule.apply (headerRule.apply (schemeRule.apply
    (redactPrivateKeyBlocks value))))

theorem redactSecrets_eq (value : List Nat) :
    redactSecrets value =
      TOKEN_PATTERNS.foldl (fun out r => (tokenRule r).apply out) (redactLabelled value) :=
  rfl

theorem block_unmatched {kept : List Nat -> List Nat -> Prop} {xs ys : List Nat}
    (h : Scrubs kept SafeCut [] xs ys []) (hxs : PEM_PRIVATE_KEY_BLOCK.Unmatched xs) :
    PEM_PRIVATE_KEY_BLOCK.Unmatched ys :=
  block_of_scrubs (fun _ _ _ _ hcut => hcut.stamp) h fun front back hsplit _ =>
    hxs front back hsplit

theorem redactLabelled_block (value : List Nat) :
    PEM_PRIVATE_KEY_BLOCK.Unmatched (redactLabelled value) := by
  apply block_unmatched ((fieldRule_scrubs _).mono (fun h => h) ValueCut.safe)
  apply block_unmatched ((userinfoRule_scrubs _).mono (fun h => h) UserinfoCut.safe)
  apply block_unmatched ((headerRule_scrubs _).mono (fun h => h) ValueCut.safe)
  apply block_unmatched ((schemeRule_scrubs _).mono (fun h => h) SchemeCut.safe)
  exact redactPrivateKeyBlocks_unmatched value

theorem redactLabelled_passwords (value : List Nat) :
    PasswordsScrubbed (redactLabelled value) :=
  scrubbed_of_scrubs ((fieldRule_scrubs _).mono (fun h => h) ValueCut.userCut)
    (userinfoRule_scrubbed _)

/-- What every rule for tokens keeps is kept by all of them. -/
theorem tokens_keep (holds : List Nat -> Prop) {rs : List (Regex Nat)}
    (hrs : forall r, r ∈ rs -> forall value, holds value -> holds ((tokenRule r).apply value))
    {value : List Nat} (h : holds value) :
    holds (rs.foldl (fun out r => (tokenRule r).apply out) value) := by
  induction rs generalizing value with
  | nil => exact h
  | cons r rs ih =>
      apply ih fun r' hr' => hrs r' (List.mem_cons_of_mem r hr')
      exact hrs r List.mem_cons_self value h

/-- What a rule for tokens drops does not come up again. -/
theorem tokens_unmatched {rs : List (Regex Nat)}
    (hrs : forall r, r ∈ rs -> Token r ∧ Consumes r) {r : Regex Nat} (hr : r ∈ rs)
    (value : List Nat) : r.Unmatched (rs.foldl (fun out r => (tokenRule r).apply out) value) := by
  induction rs generalizing value with
  | nil => cases hr
  | cons first rs ih =>
      have hlater : forall r', r' ∈ rs -> Token r' ∧ Consumes r' :=
        fun r' hr' => hrs r' (List.mem_cons_of_mem first hr')
      cases hr with
      | head =>
          have htoken := hrs r List.mem_cons_self
          apply @tokens_keep r.Unmatched rs
          · intro r' hr' value' hvalue'
            have hscrubs := tokenRule_scrubs (hlater r' hr').1 (hlater r' hr').2 value'
            exact htoken.1.unmatched (hscrubs.mono (fun h => h) TokenCut.safe) hvalue'
          · exact tokenRule_unmatched htoken.1 htoken.2 value
      | tail _ hr => exact ih hlater hr _

/-- A scrubbed text holds no private key block, no password in a URL and no standalone
token; the scrub of blocks and the rules for URLs and tokens leave it as it is, and so
does the whole scrub where the other rules do. -/
theorem redactSecrets_law (value : List Nat) :
    PEM_PRIVATE_KEY_BLOCK.Unmatched (redactSecrets value) ∧
    PasswordsScrubbed (redactSecrets value) ∧
    (forall r, r ∈ TOKEN_PATTERNS -> r.Unmatched (redactSecrets value)) ∧
    redactPrivateKeyBlocks (redactSecrets value) = redactSecrets value ∧
    userinfoRule.apply (redactSecrets value) = redactSecrets value ∧
    (forall r, r ∈ TOKEN_PATTERNS ->
      (tokenRule r).apply (redactSecrets value) = redactSecrets value) ∧
    ((forall rule, rule ∈ [schemeRule, headerRule, fieldRule] ->
        rule.apply (redactSecrets value) = redactSecrets value) ->
      redactSecrets (redactSecrets value) = redactSecrets value) := by
  have hscrubs : forall r, r ∈ TOKEN_PATTERNS -> forall value,
      Scrubs (fun read rest => r.run read rest = []) (TokenCut r) [] value
        ((tokenRule r).apply value) [] :=
    fun r hr => tokenRule_scrubs (token_of_mem hr).1 (token_of_mem hr).2
  have hblock : PEM_PRIVATE_KEY_BLOCK.Unmatched (redactSecrets value) := by
    rw [redactSecrets_eq]
    apply tokens_keep PEM_PRIVATE_KEY_BLOCK.Unmatched _ (redactLabelled_block value)
    intro r hr value' hvalue'
    exact block_unmatched ((hscrubs r hr value').mono (fun h => h) TokenCut.safe) hvalue'
  have hpasswords : PasswordsScrubbed (redactSecrets value) := by
    rw [redactSecrets_eq]
    apply tokens_keep PasswordsScrubbed _ (redactLabelled_passwords value)
    intro r hr value' hvalue'
    exact scrubbed_of_scrubs ((hscrubs r hr value').mono (fun h => h) TokenCut.userCut) hvalue'
  have htokens : forall r, r ∈ TOKEN_PATTERNS -> r.Unmatched (redactSecrets value) := by
    intro r hr
    rw [redactSecrets_eq]
    exact tokens_unmatched (fun _ => token_of_mem) hr _
  have hsame : forall r, r ∈ TOKEN_PATTERNS ->
      (tokenRule r).apply (redactSecrets value) = redactSecrets value :=
    fun r hr => replaceAll_of_unmatched (token_of_mem hr).2 (htokens r hr)
  have hblockSame : redactPrivateKeyBlocks (redactSecrets value) = redactSecrets value := by
    rw [redactPrivateKeyBlocks_eq]
    exact replaceAll_of_unmatched consumes_block hblock
  have huserSame := userinfoRule_unchanged hpasswords
  refine ⟨hblock, hpasswords, htokens, hblockSame, huserSame, hsame, ?_⟩
  intro hrules
  have hlabelled : redactLabelled (redactSecrets value) = redactSecrets value := by
    rw [redactLabelled, hblockSame, hrules schemeRule (by simp), hrules headerRule (by simp),
      huserSame, hrules fieldRule (by simp)]
  rw [redactSecrets_eq (redactSecrets value), hlabelled]
  exact tokens_keep (fun out => out = redactSecrets value)
    (fun r hr value' hvalue' => by rw [hvalue', hsame r hr]) rfl

/-!
## A second scrub
-/

/-- The scrub with its private key blocks replaced through one pattern. -/
theorem redactSecrets_pattern (value : List Nat) :
    redactSecrets value = RULES.foldl (fun out rule => rule.apply out)
      (PEM_PRIVATE_KEY_BLOCK.replaceAll (fun _ => REPLACEMENT) value) := by
  rw [redactSecrets, redactPrivateKeyBlocks_eq]

/-- A value the first scrub leaves beside a dropped token is cut by the second. -/
theorem not_idempotent :
    redactSecrets (redactSecrets (stringUnits "eyJa.b.c-key:auth =x1y2")) ≠
      redactSecrets (stringUnits "eyJa.b.c-key:auth =x1y2") := by
  have hfirst : redactSecrets (stringUnits "eyJa.b.c-key:auth =x1y2") =
      stringUnits "[REDACTED]:auth =x1y2" := by
    rw [redactSecrets_pattern]
    decide +kernel
  rw [hfirst, redactSecrets_pattern]
  decide +kernel

end Redaction
end CatFactory
