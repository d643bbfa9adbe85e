import Mathlib.Data.List.DropRight
import Scrutiny.Proofs.Text.Lines
import Scrutiny.Settings

/-!
# Settings that were accepted

What is known of settings once they were read: the bounds of their numbers, and the address that
requests are sent to.  The number of tokens can be zero, and the address can lack a host; the main
statement tells exactly when.
-/

namespace Scrutiny

open Text

/-!
## Numbers

Zero is written with zeros only, with or without a plus sign in front.
-/

namespace Text

/-- The text is a way to write zero. -/
def IsZero (text : List Char) : Prop :=
  ∃ zeros, zeros ≠ [] ∧ (∀ c ∈ zeros, c = '0') ∧ (text = zeros ∨ text = '+' :: zeros)

theorem isDigit_and_value_eq_zero_iff {c : Char} :
  c.isDigit ∧ c.toNat - '0'.toNat = 0 ↔ c = '0'
  := by
  constructor
  · rintro ⟨hdigit, hvalue⟩
    simp only [Char.isDigit, Bool.and_eq_true, decide_eq_true_eq, UInt32.le_iff_toNat_le] at hdigit
    have hfirst : 48 ≤ c.toNat := hdigit.1
    have hzero : c.toNat - 48 = 0 := hvalue
    apply Char.toNat_inj.mp
    change c.toNat = 48
    omega
  · rintro rfl
    decide

/-- Digits add up to zero only if all of them are zeros. -/
theorem readDigits_eq_zero_iff {bound n : Nat} (hbound : 0 < bound) {text : List Char} :
  readDigits bound n text = .ok 0 ↔ n = 0 ∧ ∀ c ∈ text, c = '0'
  := by
  induction text generalizing n with
  | nil => simp [readDigits]
  | cons c rest ih =>
      have hsum : 10 * n + (c.toNat - '0'.toNat) = 0 ↔ n = 0 ∧ c.toNat - '0'.toNat = 0 := by omega
      rw [readDigits, List.forall_mem_cons, ← isDigit_and_value_eq_zero_iff]
      by_cases hdigit : c.isDigit
      · rw [if_neg (by simp [hdigit])]
        dsimp only
        split_ifs with hnext
        · rw [ih, hsum, and_assoc]
          simp [hdigit]
        · simp only [false_iff]
          rintro ⟨rfl, ⟨-, hvalue⟩, -⟩
          omega
      · simp [hdigit]

theorem readWhole_eq_zero_iff (bits : Nat) {text : List Char} :
  readWhole bits text = .ok 0 ↔ IsZero text
  := by
  have hbound : 0 < Nat.pow 2 bits := Nat.pow_pos (by decide)
  have hsign : '+' ≠ '0' := by decide
  rw [readWhole.eq_def]
  split
  · simp [IsZero]
  · constructor
    · rintro ⟨⟩
    · rintro ⟨zeros, hne, hzeros, rfl | heq⟩
      · exact absurd (hzeros '+' List.mem_cons_self) hsign
      · exact absurd (List.cons.inj heq).2.symm hne
  · rename_i digits hdigits
    rw [readDigits_eq_zero_iff hbound]
    constructor
    · rintro ⟨-, hzeros⟩
      exact ⟨digits, hdigits, hzeros, .inr rfl⟩
    · rintro ⟨zeros, hne, hzeros, rfl | heq⟩
      · exact absurd (hzeros '+' List.mem_cons_self) hsign
      · rw [(List.cons.inj heq).2]
        exact ⟨rfl, hzeros⟩
  · rename_i hempty _ hplus
    rw [readDigits_eq_zero_iff hbound]
    constructor
    · rintro ⟨-, hzeros⟩
      exact ⟨text, hempty, hzeros, .inl rfl⟩
    · rintro ⟨zeros, hne, hzeros, rfl | rfl⟩
      · exact ⟨rfl, hzeros⟩
      · cases hplus zeros rfl

end Text

/-!
## Addresses

An address names its host between the scheme and the next slash, question mark or number sign.
-/

namespace ModelConfig

/-- The schemes that are known. -/
def schemes : List (List Char) := ["http://".toList, "https://".toList]

/-- What an address names as its host; nothing if its scheme is not known. -/
def hostPart (address : List Char) : List Char :=
  ((schemes.findSome? fun scheme => scheme.isPrefixOf? address).getD []).takeWhile
    fun c => !"/?#".toList.contains c

variable {config : ModelConfig} {scheme : List Char}

theorem withoutSlashes_eq_rdropWhile (text : List Char) :
  withoutSlashes text = text.rdropWhile (· == '/')
  := rfl

/-- A text without the slashes at its end does not end with a slash. -/
theorem getLast?_withoutSlashes (text : List Char) :
  (withoutSlashes text).getLast? ≠ some '/'
  := by
  rw [withoutSlashes_eq_rdropWhile]
  intro h
  have hne : text.rdropWhile (· == '/') ≠ [] := by
    intro hnil
    rw [hnil] at h
    cases h
  rw [List.getLast?_eq_some_getLast hne] at h
  apply List.rdropWhile_last_not _ _ hne
  rw [Option.some.inj h]
  rfl

theorem toList_chatUrl (config : ModelConfig) :
  config.chatUrl.toList = withoutSlashes (trim config.baseUrl.toList) ++ "/chat/completions".toList
  := by
  rw [chatUrl, String.toList_append, String.toList_ofList]

theorem hostPart_append (hscheme : scheme ∈ schemes) (rest : List Char) :
  hostPart (scheme ++ rest) = rest.takeWhile fun c => !"/?#".toList.contains c
  := by
  simp only [schemes, List.mem_cons, List.not_mem_nil, or_false] at hscheme
  rcases hscheme with rfl | rfl <;> rfl

/-- What names a known host has a known scheme in front of it. -/
theorem exists_scheme_of_hostPart_ne_nil {address : List Char} (h : hostPart address ≠ []) :
  ∃ scheme ∈ schemes, scheme ++ hostPart address <+: address
  := by
  cases hbehind : schemes.findSome? fun scheme => scheme.isPrefixOf? address with
  | none =>
      rw [hostPart, hbehind] at h
      cases h rfl
  | some behind =>
      obtain ⟨scheme, hscheme, hprefix⟩ := List.exists_of_findSome?_eq_some hbehind
      obtain rfl := List.isPrefixOf?_eq_some_iff_append_eq.mp hprefix
      use scheme, hscheme
      rw [hostPart_append hscheme]
      apply (List.prefix_append_right_inj scheme).mpr (List.takeWhile_prefix _)

/-- The address starts with a known scheme and a host. -/
def NamesHost (address : List Char) : Prop :=
  hostPart address ≠ [] ∧ ∃ scheme ∈ schemes, scheme ++ hostPart address <+: address

theorem namesHost_iff {address : List Char} :
  NamesHost address ↔ hostPart address ≠ []
  := ⟨And.left, fun h => ⟨h, exists_scheme_of_hostPart_ne_nil h⟩⟩

theorem takeWhile_append_of_takeWhile_eq_nil {p : Char → Bool} {back : List Char}
    (h : back.takeWhile p = []) (front : List Char) :
  (front ++ back).takeWhile p = front.takeWhile p
  := by
  rw [List.takeWhile_append, h, List.append_nil]
  split_ifs with hlength
  · exact ((List.takeWhile_prefix p).eq_of_length hlength).symm
  · rfl

theorem withoutSlashes_append (front back : List Char) :
  withoutSlashes (front ++ back)
    = if withoutSlashes back = [] then withoutSlashes front else front ++ withoutSlashes back
  := by
  simp only [withoutSlashes, List.reverse_append, List.dropWhile_append, List.isEmpty_iff,
    List.reverse_eq_nil_iff]
  split_ifs with h
  · rfl
  · rw [List.reverse_append, List.reverse_reverse]

theorem exists_scheme_of_fault?_eq_none (h : config.fault? = none) :
  ∃ scheme ∈ schemes, scheme <+: trim config.baseUrl.toList
  := by
  by_contra hscheme
  have hnone : ∀ scheme ∈ schemes, scheme.isPrefixOf (trim config.baseUrl.toList) = false := by
    intro scheme hmem
    rw [Bool.eq_false_iff, ne_eq, List.isPrefixOf_iff_prefix]
    intro hprefix
    exact hscheme ⟨scheme, hmem, hprefix⟩
  simp only [schemes, List.forall_mem_cons] at hnone
  obtain ⟨hplain, hsecure, -⟩ := hnone
  rw [fault?, hplain, hsecure] at h
  split at h
  · cases h
  · cases h

/-- The address that requests are sent to names the host that the address of the service names. -/
theorem hostPart_chatUrl (hscheme : scheme ∈ schemes) (hbase : scheme <+: trim config.baseUrl.toList) :
  hostPart config.chatUrl.toList = hostPart (trim config.baseUrl.toList)
  := by
  obtain ⟨rest, hbase⟩ := hbase
  have hsplit : withoutSlashes rest ++ rest.rtakeWhile (· == '/') = rest :=
    List.rdropWhile_append_rtakeWhile
  have hslashes : (rest.rtakeWhile (· == '/')).takeWhile (fun c => !"/?#".toList.contains c) = [] := by
    rw [List.takeWhile_eq_nil_iff]
    intro hlength
    have hslash := List.mem_rtakeWhile_imp (List.get_mem _ ⟨0, hlength⟩)
    rw [eq_of_beq hslash]
    decide
  rw [toList_chatUrl, ← hbase, withoutSlashes_append, hostPart_append hscheme]
  split_ifs with hnone
  · -- Without a host, the slashes of the scheme go away too.
    rw [← hsplit, hnone, List.nil_append, hslashes]
    simp only [schemes, List.mem_cons, List.not_mem_nil, or_false] at hscheme
    rcases hscheme with rfl | rfl <;> decide
  · rw [List.append_assoc, hostPart_append hscheme, takeWhile_append_of_takeWhile_eq_nil rfl]
    conv_rhs => rw [← hsplit, takeWhile_append_of_takeWhile_eq_nil hslashes]

end ModelConfig

namespace Settings

variable {home : Option String} {lookup : String → Option String} {settings : Settings}

/-- The value of a variable without the blank characters around it; a blank value counts as none. -/
def given? (lookup : String → Option String) (name : String) : Option String :=
  (lookup name).bind fun value =>
    let trimmed := trim value.toList
    if trimmed.isEmpty then none else some (String.ofList trimmed)

theorem given?_eq_some_iff {name : String} {text : List Char} :
  given? lookup name = some (String.ofList text)
    ↔ ∃ value, lookup name = some value ∧ trim value.toList = text ∧ text ≠ []
  := by
  rw [given?, Option.bind_eq_some_iff]
  apply exists_congr
  intro value
  apply and_congr_right
  intro _
  dsimp only
  split_ifs with hempty
  · rw [List.isEmpty_iff] at hempty
    grind
  · rw [List.isEmpty_iff] at hempty
    rw [Option.some_inj, String.ofList_inj]
    grind

/-- The number of tokens that the variables give. -/
def readTokens (lookup : String → Option String) : Except Failure (Option Nat) :=
  match given? lookup "LLM_MAX_OUTPUT_TOKENS" with
  | none => .ok none
  | some value =>
    match readWhole 32 value.toList with
    | .ok n => .ok (some n)
    | .error e =>
      .error { message := notPositive "LLM_MAX_OUTPUT_TOKENS" value, causes := [e.message] }

/-- The number of characters that the variables give. -/
def readCharLimit (lookup : String → Option String) : Except Failure Nat :=
  match given? lookup "AI_AUDIT_CHAR_LIMIT" with
  | none => .ok defaultCharLimit
  | some value =>
    match readWhole 64 value.toList with
    | .ok (n + 1) => .ok (n + 1)
    | _ => .error { message := notPositive "AI_AUDIT_CHAR_LIMIT" value, causes := [] }

/-- Only the numbers of tokens and of characters can be refused. -/
theorem ofVariables_eq (home : Option String) (lookup : String → Option String) :
  ofVariables home lookup
    = (readTokens lookup).bind fun maxOutputTokens =>
      (readCharLimit lookup).map fun charLimit =>
        { apiBaseUrl := given? lookup "LLM_API_BASE_URL"
          apiKey := given? lookup "LLM_API_KEY"
          modelName := given? lookup "LLM_MODEL_NAME"
          maxOutputTokens
          dataFolder := expandHome home ((given? lookup "AI_AUDIT_DATA_DIR").getD defaultDataFolder)
          concurrency := readConcurrency (given? lookup "AI_AUDIT_CONCURRENCY") defaultConcurrency
          charLimit }
  := by
  have hgiven (name : String) : ((lookup name).bind fun value =>
      if (trim value.toList).isEmpty then none else some (String.ofList (trim value.toList)))
        = given? lookup name := rfl
  rw [ofVariables, readTokens, readCharLimit]
  simp only [hgiven]
  cases given? lookup "LLM_MAX_OUTPUT_TOKENS" with
  | none =>
      cases given? lookup "AI_AUDIT_CHAR_LIMIT" with
      | none => rfl
      | some limit =>
          dsimp only
          rcases readWhole 64 limit.toList with e | _ | n <;> rfl
  | some tokens =>
      dsimp only
      rcases readWhole 32 tokens.toList with e | n
      · rfl
      · cases given? lookup "AI_AUDIT_CHAR_LIMIT" with
        | none => rfl
        | some limit =>
            dsimp only
            rcases readWhole 64 limit.toList with e | _ | n <;> rfl

/-- A number of characters is positive. -/
theorem readCharLimit_pos {n : Nat} (h : readCharLimit lookup = .ok n) :
  0 < n
  := by
  rw [readCharLimit] at h
  split at h
  · rw [← Except.ok.inj h]
    decide
  · split at h
    · rw [← Except.ok.inj h]
      apply Nat.succ_pos
    · cases h

/-- The number of tokens is zero if the variable says so. -/
theorem readTokens_eq_zero_iff :
  readTokens lookup = .ok (some 0)
    ↔ ∃ value, lookup "LLM_MAX_OUTPUT_TOKENS" = some value ∧ IsZero (trim value.toList)
  := by
  have hread : readTokens lookup = .ok (some 0)
      ↔ ∃ text, given? lookup "LLM_MAX_OUTPUT_TOKENS" = some (String.ofList text) ∧ IsZero text := by
    rw [readTokens]
    cases given? lookup "LLM_MAX_OUTPUT_TOKENS" with
    | none => simp
    | some value =>
        have hvalue : ∀ text, some value = some (String.ofList text) ↔ value.toList = text := by
          intro text
          rw [Option.some_inj, ← String.toList_inj, String.toList_ofList]
        simp only [hvalue, exists_eq_left', ← readWhole_eq_zero_iff 32]
        cases readWhole 32 value.toList <;> simp
  rw [hread]
  constructor
  · rintro ⟨text, hgiven, hzero⟩
    obtain ⟨value, hvalue, rfl, -⟩ := given?_eq_some_iff.mp hgiven
    exact ⟨value, hvalue, hzero⟩
  · rintro ⟨value, hvalue, hzero⟩
    refine ⟨_, given?_eq_some_iff.mpr ⟨value, hvalue, rfl, ?_⟩, hzero⟩
    rintro hnil
    obtain ⟨zeros, hne, -, htext | htext⟩ := hzero
    · exact hne (htext.symm.trans hnil)
    · rw [htext] at hnil
      cases hnil

theorem clampConcurrency_bounds (n : Nat) :
  1 ≤ clampConcurrency n ∧ clampConcurrency n ≤ 32
  := by
  rw [clampConcurrency, maxConcurrency]
  omega

theorem concurrency_withOverrides_bounds (h : 1 ≤ settings.concurrency ∧ settings.concurrency ≤ 32)
    (concurrency charLimit : Option Nat) :
  1 ≤ (settings.withOverrides concurrency charLimit).concurrency
    ∧ (settings.withOverrides concurrency charLimit).concurrency ≤ 32
  := by
  cases concurrency with
  | none => apply h
  | some n => apply clampConcurrency_bounds

theorem charLimit_withOverrides_pos (h : 0 < settings.charLimit) (concurrency charLimit : Option Nat) :
  0 < (settings.withOverrides concurrency charLimit).charLimit
  := by
  cases charLimit with
  | none => apply h
  | some n =>
      change 0 < ((some n).filter (0 < ·)).getD settings.charLimit
      rw [Option.filter_some]
      split_ifs with hn
      · simpa using hn
      · apply h

theorem of_modelConfig_eq_ok {config : ModelConfig} (h : settings.modelConfig = .ok config) :
  settings.apiBaseUrl = some config.baseUrl ∧ config.fault? = none
  := by
  rw [modelConfig] at h
  split at h
  · rename_i base hbase
    split at h
    · dsimp only at h
      split at h
      · cases h
      · rename_i hfault
        obtain rfl := Except.ok.inj h
        exact ⟨hbase, hfault⟩
    · cases h
  · cases h

/-- What is known of settings from the variables they were read from. -/
theorem of_ofVariables_eq_ok (h : ofVariables home lookup = .ok settings) :
  settings.apiBaseUrl = given? lookup "LLM_API_BASE_URL"
    ∧ settings.concurrency = readConcurrency (given? lookup "AI_AUDIT_CONCURRENCY") defaultConcurrency
    ∧ readTokens lookup = .ok settings.maxOutputTokens ∧ readCharLimit lookup = .ok settings.charLimit
  := by
  rw [ofVariables_eq] at h
  cases htokens : readTokens lookup with
  | error e =>
      rw [htokens] at h
      cases h
  | ok tokens =>
      cases hlimit : readCharLimit lookup with
      | error e =>
          rw [htokens, hlimit] at h
          cases h
      | ok limit =>
          rw [htokens, hlimit] at h
          obtain rfl := Except.ok.inj h
          exact ⟨rfl, rfl, rfl, rfl⟩

/-- The numbers of settings that were read are within their bounds, but for the number of tokens: it is
zero if the variable says so.  The address that requests are sent to is the one that was given, without
the slashes at its end, and names a host if that one does. -/
theorem usable_of_ofVariables (h : ofVariables home lookup = .ok settings)
    (concurrency charLimit : Option Nat) :
  1 ≤ (settings.withOverrides concurrency charLimit).charLimit
    ∧ 1 ≤ (settings.withOverrides concurrency charLimit).concurrency
    ∧ (settings.withOverrides concurrency charLimit).concurrency ≤ 32
    ∧ ((settings.withOverrides concurrency charLimit).maxOutputTokens = some 0
      ↔ ∃ value, lookup "LLM_MAX_OUTPUT_TOKENS" = some value ∧ IsZero (trim value.toList))
    ∧ ∀ config, (settings.withOverrides concurrency charLimit).modelConfig = .ok config →
      ∃ value, lookup "LLM_API_BASE_URL" = some value
        ∧ (∃ front, config.chatUrl.toList = front ++ "/chat/completions".toList
          ∧ front.getLast? ≠ some '/')
        ∧ (ModelConfig.NamesHost config.chatUrl.toList
          ↔ ModelConfig.NamesHost (trim value.toList))
  := by
  obtain ⟨hbase, hconcurrency, htokens, hlimit⟩ := of_ofVariables_eq_ok h
  have hbounds : 1 ≤ settings.concurrency ∧ settings.concurrency ≤ 32 := by
    rw [hconcurrency]
    apply clampConcurrency_bounds
  obtain ⟨hlow, hhigh⟩ := concurrency_withOverrides_bounds hbounds concurrency charLimit
  refine ⟨charLimit_withOverrides_pos (readCharLimit_pos hlimit) _ _, hlow, hhigh, ?_, ?_⟩
  · rw [← readTokens_eq_zero_iff, htokens, Except.ok.injEq]
    rfl
  · intro config hconfig
    obtain ⟨haddress, hfault⟩ := of_modelConfig_eq_ok hconfig
    have hgiven : given? lookup "LLM_API_BASE_URL" = some (String.ofList config.baseUrl.toList) := by
      rw [← hbase, String.ofList_toList]
      apply haddress
    obtain ⟨value, hvalue, htrim, -⟩ := given?_eq_some_iff.mp hgiven
    refine ⟨value, hvalue, ⟨_, config.toList_chatUrl, ModelConfig.getLast?_withoutSlashes _⟩, ?_⟩
    obtain ⟨scheme, hscheme, hprefix⟩ := ModelConfig.exists_scheme_of_fault?_eq_none hfault
    rw [ModelConfig.namesHost_iff, ModelConfig.namesHost_iff, ModelConfig.hostPart_chatUrl hscheme hprefix,
      ← htrim, trim_trim]

/-- Variables with blanks around the address and more requests at a time than there may be. -/
def paddedVariables : Environment where
  values := [("LLM_API_BASE_URL", "  https://api.example.com/v1//  "), ("LLM_MODEL_NAME", "gpt-4o-mini"),
    ("LLM_MAX_OUTPUT_TOKENS", "+800"), ("AI_AUDIT_CONCURRENCY", "500"), ("AI_AUDIT_CHAR_LIMIT", "4000")]

theorem usable_of_ofVariables_padded :
  ∃ settings config, ofVariables none paddedVariables.get? = .ok settings
    ∧ (settings.withOverrides (some 0) (some 1500)).modelConfig = .ok config
    ∧ 1 ≤ (settings.withOverrides (some 0) (some 1500)).charLimit
    ∧ 1 ≤ (settings.withOverrides (some 0) (some 1500)).concurrency
    ∧ (settings.withOverrides (some 0) (some 1500)).concurrency ≤ 32
    ∧ (settings.withOverrides (some 0) (some 1500)).maxOutputTokens = some 800
    ∧ (∃ front, config.chatUrl.toList = front ++ "/chat/completions".toList
      ∧ front.getLast? ≠ some '/')
    ∧ ModelConfig.NamesHost config.chatUrl.toList
  := by
  have hread : ofVariables none paddedVariables.get? = .ok _ := rfl
  obtain ⟨hlimit, hlow, hhigh, -, hmodel⟩ := usable_of_ofVariables hread (some 0) (some 1500)
  obtain ⟨value, hvalue, hfront, hhost⟩ := hmodel _ rfl
  obtain rfl : "  https://api.example.com/v1//  " = value := Option.some.inj hvalue
  refine ⟨_, _, hread, rfl, hlimit, hlow, hhigh, rfl, hfront, hhost.mpr ?_⟩
  rw [ModelConfig.namesHost_iff]
  decide

/-- Variables with an address that is a scheme only, and with no tokens for a reply. -/
def bareVariables : Environment where
  values := [("LLM_API_BASE_URL", "http://"), ("LLM_MODEL_NAME", "m"), ("LLM_MAX_OUTPUT_TOKENS", "0")]

/-- Settings without tokens for a reply are accepted, and so is an address that names no host. -/
theorem not_usable_bare :
  ∃ settings config, ofVariables none bareVariables.get? = .ok settings
    ∧ (settings.withOverrides none none).maxOutputTokens = some 0
    ∧ (settings.withOverrides none none).modelConfig = .ok config
    ∧ config.chatUrl = "http:/chat/completions" ∧ ¬ ModelConfig.NamesHost config.chatUrl.toList
  := by
  refine ⟨_, _, rfl, rfl, rfl, rfl, ?_⟩
  change ¬ ModelConfig.NamesHost "http:/chat/completions".toList
  rw [ModelConfig.namesHost_iff]
  decide

end Settings

end Scrutiny
