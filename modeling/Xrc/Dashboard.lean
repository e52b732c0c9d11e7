/-
`api/dashboard.rs`: the page that shows the state of the canister and its latest requests.

The rows of the two tables hold what strangers have sent, and what came of it. A symbol is shown
if it has only letters and digits, an error has its words, and a rate has so few decimals that ten
to their number is a word: a row is rendered without a division by zero, and reads back
(`render_request_log_entry_spec`). No text that is put into the document contains the beginning of
a placeholder, so that one replacement after the other fills it in (`replace_page`).
-/
import Mathlib.Data.Finset.Sort
import Mathlib.Data.String.Basic
import Xrc.Markup
import Xrc.Outcomes
import Xrc.Scrape
import Xrc.Template
import Xrc.Urls

set_option autoImplicit false

namespace Xrc

open Markup

/-- The texts of types from elsewhere. -/
class Texts where
  /-- `Principal::to_text`: letters and digits in groups. -/
  principal : Principal → String
  /-- What `{:?}` makes of a character of a text. -/
  escape_debug : Char → List Char
  principal_alphanumeric : ∀ id, ∀ c ∈ (principal id).toList, c.isAlphanum = true ∨ c = '-'
  escape_debug_ascii : ∀ c : Char, 32 ≤ c.toNat → c.toNat < 127 → c ≠ '"' → c ≠ '\\' →
    escape_debug c = [c]

/-! ## The texts

The templates of the page as they stand in the source, cut where a proof has to look at a piece
of them. Whatever is shown to a reader is put in the place of their placeholders. -/

/-- The style sheet of the document. -/
def DOCUMENT_STYLE : String := "
<!DOCTYPE html>
<html lang=\\\"en\\\">
    <head>
        <title>Exchange Rate Canister Dashboard</title>
        <style>
            table \x7b
                border: solid;
                text-align: left;
                width: 100%;
                border-width: thin;
            \x7d
            h3 \x7b
                font-variant: small-caps;
                margin-top: 30px;
                margin-bottom: 5px;
            \x7d
            table.forex tr th:first-child \x7b
                width: 25%;
            \x7d
            table td, table th \x7b
                padding: 5px;
            \x7d
            table table \x7b font-size: small; \x7d
            tbody tr:nth-child(odd) \x7b background-color: #eeeeee; \x7d
        </style>
"

/-- The loop of its script, up to the time stamps it leaves alone. -/
def DOCUMENT_LOOP : String := "        <script>
            document.addEventListener(\"DOMContentLoaded\", function() \x7b
                var tds = document.querySelectorAll(\".ts-class\");
                for (var i = 0; i < tds.length; i++) \x7b
                    var td = tds[i];
                    if (td.textContent.trim() === 'None') \x7b
                        continue;
                    \x7d

"

/-- The rest of the script. -/
def DOCUMENT_DATES : String := "                    var timestamp = td.textContent * 1000;
                    var date = new Date(timestamp);
                    var options = \x7b
                        year: 'numeric',
                        month: 'short',
                        day: 'numeric',
                        hour: 'numeric',
                        minute: 'numeric',
                        second: 'numeric'
                    \x7d;
                    td.title = td.textContent;
                    td.textContent = date.toGMTString(undefined, options);
                \x7d
            \x7d);
        </script>
    </head>
"

def DOCUMENT_BODY : String := "    <body>
        <h3>Metadata</h3>
        [METADATA]
        [FOREX_COLLECTOR_STATE]
        <h3>Requests from Privileged Canisters</h3>
        [PRIVILEGED_LOGS]
        <h3>Requests from Other Canisters</h3>
        [NONPRIVILEGED_LOGS]
    </body>
</html>
"

def DOCUMENT : String := DOCUMENT_STYLE ++ (DOCUMENT_LOOP ++ (DOCUMENT_DATES ++ DOCUMENT_BODY))

def REQUEST_LOG_TABLE : String := "
<table>
    <thead>
        <tr>
            <th>Timestamp</th>
            <th>Canister ID</th>
            <th>Base Asset</th>
            <th>Quote Asset</th>
            <th>Request Timestamp</th>
            <th>Response Timestamp</th>
            <th>Error (if occurred)</th>
            <th>Rate</th>
            <th>Base Asset Received Rates</th>
            <th>Quote Asset Received Rates</th>
            <th>Std dev</th>
            <th>Forex Timestamp</th>
        </tr>
    </thead>
    <tbody>[ROWS]</tbody>
</table>
"

def METADATA_TABLE : String := "
<table>
    <tr>
        <th># of Crypto Exchanges</th>
        <td>[EXCHANGES_NUM]</td>
    </tr>
    <tr>
        <th># of Forex Sources</th>
        <td>[FOREX_SOURCES_NUM]</td>
    </tr>
    <tr>
        <th>Privileged Canister IDs</th>
        <td>
            <table>[PRIVILEGED_CANISTER_IDS]</table>
        </td>
    </tr>
</table>
"

/-! ## Formats

The formats of the source for numbers, classes and errors. `format_scaled_value` computes a
power of ten in a word, which wraps around for many decimals and can then be zero. -/

/-- `{:0width$}`. -/
def zero_padded (width : ℕ) (digits : Text) : Text :=
  List.replicate (width - digits.length) '0' ++ digits

/-- `format_scaled_value`. A power that is too large wraps around; a division by zero panics. -/
def format_scaled_value (value decimals : ℕ) : Option Text :=
  let scaling_factor := 10 ^ decimals % 2 ^ 64
  if scaling_factor = 0 then none
  else
    let fractional := value % scaling_factor
    let whole := value / scaling_factor
    some (display whole ++ '.' :: zero_padded decimals (display fractional))

/-- `{:?}` of an asset class. -/
def AssetClass.debug : AssetClass → Text
  | .Cryptocurrency => "Cryptocurrency".toList
  | .FiatCurrency => "FiatCurrency".toList

/-- `{:?}` of an optional number. -/
def debug_option : Option ℕ → Text
  | none => "None".toList
  | some value => "Some(".toList ++ display value ++ [')']

/-- `{:?}` of an error. -/
def ExchangeRateError.debug [Texts] : ExchangeRateError → Text
  | .AnonymousPrincipalNotAllowed => "AnonymousPrincipalNotAllowed".toList
  | .Pending => "Pending".toList
  | .CryptoBaseAssetNotFound => "CryptoBaseAssetNotFound".toList
  | .CryptoQuoteAssetNotFound => "CryptoQuoteAssetNotFound".toList
  | .StablecoinRateNotFound => "StablecoinRateNotFound".toList
  | .StablecoinRateTooFewRates => "StablecoinRateTooFewRates".toList
  | .StablecoinRateZeroRate => "StablecoinRateZeroRate".toList
  | .ForexInvalidTimestamp => "ForexInvalidTimestamp".toList
  | .ForexBaseAssetNotFound => "ForexBaseAssetNotFound".toList
  | .ForexQuoteAssetNotFound => "ForexQuoteAssetNotFound".toList
  | .ForexAssetsNotFound => "ForexAssetsNotFound".toList
  | .RateLimited => "RateLimited".toList
  | .NotEnoughCycles => "NotEnoughCycles".toList
  | .InconsistentRatesReceived => "InconsistentRatesReceived".toList
  | .Other error => "Other(OtherError \x7b code: ".toList ++ display error.code
      ++ ", description: \"".toList ++ error.description.toList.flatMap Texts.escape_debug
      ++ "\" \x7d)".toList

/-! ## Rows

A row has seven cells. What is shown of a symbol depends on its characters, since it comes from
the caller; all else is formatted by the canister. -/

/-- `<td>{}</td>`. -/
def td (content : Text) : Text := "<td>".toList ++ content ++ "</td>".toList

/-- `<td class='ts-class'>{}</td>`. -/
def td_ts (content : Text) : Text := "<td class='ts-class'>".toList ++ content ++ "</td>".toList

/-- What is shown of a symbol. -/
def shown_symbol [Unicode] (symbol : String) : Text :=
  if symbol.toList.all Unicode.is_alphanumeric then symbol.toList else "Invalid Symbol".toList

def render_asset [Unicode] (asset : Asset) : Text :=
  "Symbol: ".toList ++ shown_symbol asset.symbol ++ "<br/>Class: ".toList ++ asset.class'.debug

def render_result [Texts] : GetExchangeRateResult → Option Text
  | .ok rate => do
      let scaled_rate ← format_scaled_value rate.rate rate.metadata.decimals
      let scaled_deviation ←
        format_scaled_value rate.metadata.standard_deviation rate.metadata.decimals
      some (td_ts (display rate.timestamp) ++ td [] ++ td scaled_rate
        ++ td (display rate.metadata.base_asset_num_received_rates)
        ++ td (display rate.metadata.quote_asset_num_received_rates) ++ td scaled_deviation
        ++ td_ts ((rate.metadata.forex_timestamp.map display).getD "None".toList))
  | .error error => some (td [] ++ td error.debug ++ td [] ++ td [] ++ td [] ++ td [] ++ td [])

/-- The row of an entry. -/
def render_request_log_entry [Unicode] [Texts] (entry : RequestLogEntry) : Option Text := do
  let result ← render_result entry.result
  some ("<tr>".toList ++ (td_ts (display entry.timestamp)
    ++ td (Texts.principal entry.caller).toList ++ td (render_asset entry.request.base_asset)
    ++ td (render_asset entry.request.quote_asset) ++ td (debug_option entry.request.timestamp)
    ++ result) ++ "</tr>".toList)

/-- `render_request_log_entries`. -/
def render_request_log_entries [Unicode] [Texts] (log : RequestLog) : Option Text := do
  let rows ← log.entries.mapM render_request_log_entry
  some (Template.replace "[ROWS]".toList ([' '].intercalate rows) REQUEST_LOG_TABLE.toList)

/-! ## The page

Four global replacements, one after the other, put the metadata, the collectors and the two
tables into the document. A later one also sees what an earlier one has put in. -/

def render_metadata [Features] [Texts] : Text :=
  Template.replace "[PRIVILEGED_CANISTER_IDS]".toList
    (PRIVILEGED_CANISTER_IDS.flatMap fun id =>
      "<tr><td><code>".toList ++ (Texts.principal id).toList ++ "</code></td></tr>".toList)
    (Template.replace "[FOREX_SOURCES_NUM]".toList
      (display (FOREX_SOURCES.filter Forex.is_available).length)
      (Template.replace "[EXCHANGES_NUM]".toList
        (display (EXCHANGES.filter Exchange.is_available).length) METADATA_TABLE.toList))

def render_forex_collector (collector : ForexRatesCollector) (timestamp : ℕ) : Text :=
  let title := "<h3>Forex Collection for <span class='ts-class'>".toList ++ display timestamp
    ++ "</span></h3>".toList
  let sources := ((collector.get_sources timestamp).getD ∅).sort
  let table := "<table class='forex'><tr><th>Sources</th><td>".toList
    ++ (", ".toList).intercalate (sources.map String.toList) ++ "</td></tr></table>".toList
  title ++ table

def render_forex_collectors (collector : ForexRatesCollector) : Text :=
  collector.get_timestamps.flatMap (render_forex_collector collector)

section Page

variable {L : Type} [Features] [Unicode] [Texts]

/-- `render`, with the collector and the logs it reads. -/
def render (collector : ForexRatesCollector) (served : Served L) : Option Text := do
  let privileged_logs ← render_request_log_entries (served.log_of true)
  let nonprivileged_logs ← render_request_log_entries (served.log_of false)
  some (Template.replace "[NONPRIVILEGED_LOGS]".toList nonprivileged_logs
    (Template.replace "[PRIVILEGED_LOGS]".toList privileged_logs
      (Template.replace "[FOREX_COLLECTOR_STATE]".toList (render_forex_collectors collector)
        (Template.replace "[METADATA]".toList render_metadata DOCUMENT.toList))))

def get_dashboard (collector : ForexRatesCollector) (served : Served L) : Option HttpResponse := do
  let body ← render collector served
  some
    { status_code := 200
      headers := [("Content-Type", "text/html; charset=utf-8"),
        ("Content-Length", toString (String.ofList body).utf8ByteSize)]
      body := body }

end Page

/-! ## Plain texts

A text is harmless if it has neither the character that begins a tag nor the one that begins a
placeholder. Each part of a row is shown to be, and for errors this goes by the list of their
texts. -/

/-- A text without tags and placeholders. Neither a reader of the markup nor one of the
placeholders stops anywhere in it. -/
def Plain (w : Text) : Prop := ∀ c ∈ w, c ≠ '<' ∧ c ≠ '['

/-- A fixed text is checked. -/
theorem plain_of_all {w : Text} (h : (w.all fun c => decide (c ≠ '<' ∧ c ≠ '[')) = true) :
    Plain w := fun c hc => of_decide_eq_true (List.all_eq_true.mp h c hc)

theorem Plain.notMem_tag {w : Text} (h : Plain w) : '<' ∉ w := fun hmem => (h _ hmem).1 rfl

theorem Plain.notMem_slot {w : Text} (h : Plain w) : '[' ∉ w := fun hmem => (h _ hmem).2 rfl

theorem Plain.append {w w' : Text} (h : Plain w) (h' : Plain w') : Plain (w ++ w') := by
  intro c hc
  rcases List.mem_append.mp hc with hmem | hmem
  · exact h c hmem
  · exact h' c hmem

theorem plain_display (value : ℕ) : Plain (display value) := by
  intro c hc
  refine ⟨?_, ?_⟩
  · rintro rfl
    exact notMem_display rfl value hc
  · rintro rfl
    exact notMem_display rfl value hc

theorem plain_principal [Texts] (id : Principal) : Plain (Texts.principal id).toList := by
  intro c hc
  have hkind := Texts.principal_alphanumeric id c hc
  refine ⟨?_, ?_⟩
  · rintro rfl
    revert hkind
    decide
  · rintro rfl
    revert hkind
    decide

theorem AssetClass.plain_debug (class' : AssetClass) : Plain class'.debug := by
  cases class' with
  | Cryptocurrency => exact plain_of_all rfl
  | FiatCurrency => exact plain_of_all rfl

/-- A symbol is shown if it has only letters and digits. -/
theorem plain_shown_symbol [Unicode] (symbol : String) : Plain (shown_symbol symbol) := by
  unfold shown_symbol
  split
  · rename_i hall
    intro c hc
    have halphanumeric := List.all_eq_true.mp hall c hc
    refine ⟨?_, ?_⟩
    · rintro rfl
      rw [Unicode.is_alphanumeric_ascii _ (by decide)] at halphanumeric
      exact absurd halphanumeric (by decide)
    · rintro rfl
      rw [Unicode.is_alphanumeric_ascii _ (by decide)] at halphanumeric
      exact absurd halphanumeric (by decide)
  · exact plain_of_all rfl

theorem plain_debug_option (value : Option ℕ) : Plain (debug_option value) := by
  cases value with
  | none => exact plain_of_all rfl
  | some value =>
      have hopen : Plain "Some(".toList := plain_of_all rfl
      have hclose : Plain [')'] := plain_of_all rfl
      exact (hopen.append (plain_display value)).append hclose

/-- A character of the texts of `errors.rs`, which `{:?}` does not escape. -/
def unescaped (c : Char) : Bool :=
  decide (32 ≤ c.toNat ∧ c.toNat < 127 ∧ c ≠ '"' ∧ c ≠ '\\' ∧ c ≠ '<' ∧ c ≠ '[')

theorem unescaped_iff {c : Char} : unescaped c = true
    ↔ 32 ≤ c.toNat ∧ c.toNat < 127 ∧ c ≠ '"' ∧ c ≠ '\\' ∧ c ≠ '<' ∧ c ≠ '[' :=
  decide_eq_true_iff

theorem unescaped_of_isDigit {c : Char} (h : c.isDigit = true) : unescaped c = true := by
  have hrange : 48 ≤ c.toNat ∧ c.toNat ≤ 57 := by
    unfold Char.isDigit at h
    rw [Bool.and_eq_true, decide_eq_true_eq, decide_eq_true_eq] at h
    exact ⟨UInt32.le_iff_toNat_le.mp h.1, UInt32.le_iff_toNat_le.mp h.2⟩
  refine unescaped_iff.mpr ⟨by omega, by omega, ?_, ?_, ?_, ?_⟩ <;>
    (rintro rfl
     exact absurd h (by decide))

theorem all_unescaped_toString (value : ℕ) : (toString value).toList.all unescaped = true := by
  refine List.all_eq_true.mpr fun c hc => unescaped_of_isDigit ?_
  have hdigits : c ∈ Nat.toDigits 10 value := by
    rwa [← Nat.toList_repr]
  exact Nat.isDigit_of_mem_toDigits (by decide) (by decide) hdigits

theorem debug_other [Texts] (error : OtherError) : (ExchangeRateError.Other error).debug
    = "Other(OtherError \x7b code: ".toList ++ display error.code
      ++ ", description: \"".toList ++ error.description.toList.flatMap Texts.escape_debug
      ++ "\" \x7d)".toList := rfl

/-- The text of an error that is no kind of its own. -/
theorem plain_debug_other [Texts] {error : OtherError}
    (h : error.description.toList.all unescaped = true) :
    Plain (ExchangeRateError.Other error).debug := by
  have hescaped : error.description.toList.flatMap Texts.escape_debug
      = error.description.toList := by
    calc error.description.toList.flatMap Texts.escape_debug
        = error.description.toList.flatMap fun c => [c] := by
          refine List.flatMap_congr fun c hc => ?_
          obtain ⟨hlow, hhigh, hquote, hslash, -, -⟩ :=
            unescaped_iff.mp (List.all_eq_true.mp h c hc)
          exact Texts.escape_debug_ascii c hlow hhigh hquote hslash
      _ = error.description.toList := List.flatMap_singleton' _
  -- the description is printed as it is, between fixed texts and the number of the code
  have hdescription : Plain error.description.toList := by
    intro c hc
    obtain ⟨-, -, -, -, hplain⟩ := unescaped_iff.mp (List.all_eq_true.mp h c hc)
    exact hplain
  have hopen : Plain "Other(OtherError \x7b code: ".toList := plain_of_all rfl
  have hmiddle : Plain ", description: \"".toList := plain_of_all rfl
  have hclose : Plain "\" \x7d)".toList := plain_of_all rfl
  rw [debug_other, hescaped]
  exact (((hopen.append (plain_display _)).append hmiddle).append hdescription).append hclose

/-- **An error with its words is plain.** The words are fixed texts and numbers, so there is no
character in them that the page would take for markup, and none that the debug format escapes. -/
theorem Worded.plain_debug [Texts] {error : ExchangeRateError} (h : Worded error) :
    Plain error.debug := by
  cases h with
  | kind hkind =>
      cases error with
      | Other other => exact absurd rfl (hkind other)
      | _ => exact plain_of_all rfl
  | base_asset_symbol_invalid => exact plain_debug_other rfl
  | quote_asset_symbol_invalid => exact plain_debug_other rfl
  | invalid_rate => exact plain_debug_other rfl
  | timestamp_is_in_future requested current =>
      refine plain_debug_other ?_
      dsimp only
      rw [String.toList_append, String.toList_append, String.toList_append, String.toList_append,
        List.all_append, List.all_append, List.all_append, List.all_append,
        all_unescaped_toString, all_unescaped_toString]
      rfl

/-! ## What a row shows

The specification of a row, in terms of the entry and of exact numbers: with few decimals the
power of ten is a word, and the scaled value has its digits on both sides of the point. -/

/-- A number, scaled. -/
def scaled (value decimals : ℕ) : Text :=
  display (value / 10 ^ decimals) ++ '.' :: zero_padded decimals (display (value % 10 ^ decimals))

/-- **Few decimals are formatted exactly**: nothing wraps around, nothing is divided by zero. The
power of ten is computed in 64 bits, and it is for a number of decimals beyond the allowed ones
that it could wrap around to zero. -/
theorem format_scaled_value_eq {decimals : ℕ} (h : decimals ≤ 2 * DECIMALS) (value : ℕ) :
    format_scaled_value value decimals = some (scaled value decimals) := by
  have hword : 10 ^ decimals < 2 ^ 64 :=
    (Nat.pow_le_pow_right (by decide) h).trans_lt (by decide)
  unfold format_scaled_value
  dsimp only
  rw [Nat.mod_eq_of_lt hword, if_neg (pow_pos (by decide) decimals).ne']
  rfl

theorem plain_scaled (value decimals : ℕ) : Plain (scaled value decimals) := by
  have hpoint : Plain ['.'] := plain_of_all rfl
  have hpadded : Plain (zero_padded decimals (display (value % 10 ^ decimals))) := by
    refine Plain.append ?_ (plain_display _)
    intro c hc
    rw [List.eq_of_mem_replicate hc]
    exact ⟨by decide, by decide⟩
  exact (plain_display _).append (hpoint.append hpadded)

section Shown

variable [Unicode] [Texts]

/-- What a cell shows of an asset, in two lines. -/
def shown_asset (asset : Asset) : Text :=
  "Symbol: ".toList ++ shown_symbol asset.symbol ++ '\n' :: "Class: ".toList
    ++ asset.class'.debug

/-- What the cells show of a result. -/
def shown_result : GetExchangeRateResult → List Text
  | .ok rate =>
      [display rate.timestamp, [], scaled rate.rate rate.metadata.decimals,
        display rate.metadata.base_asset_num_received_rates,
        display rate.metadata.quote_asset_num_received_rates,
        scaled rate.metadata.standard_deviation rate.metadata.decimals,
        (rate.metadata.forex_timestamp.map display).getD "None".toList]
  | .error error => [[], error.debug, [], [], [], [], []]

/-- What the cells of a row show. -/
def shown (entry : RequestLogEntry) : List Text :=
  [display entry.timestamp, (Texts.principal entry.caller).toList,
    shown_asset entry.request.base_asset, shown_asset entry.request.quote_asset,
    debug_option entry.request.timestamp] ++ shown_result entry.result

end Shown

/-! ## Rows read back

Cell by cell, what the reader of `Markup.lean` gets out of a row is what it should show. The row
of an entry is rendered at all because its result is proper. -/

/-- A text adds cells to a row, and has no placeholders. -/
def Shows (text : Text) (cells : List Text) : Prop := Cells text cells ∧ '[' ∉ text

theorem Shows.append {text text' : Text} {cells cells' : List Text} (h : Shows text cells)
    (h' : Shows text' cells') : Shows (text ++ text') (cells ++ cells') := by
  refine ⟨h.1.append h'.1, ?_⟩
  rw [List.mem_append, not_or]
  exact ⟨h.2, h'.2⟩

theorem notMem_framed {content opening closing : Text} (h : '[' ∉ content) (hopen : '[' ∉ opening)
    (hclose : '[' ∉ closing) : '[' ∉ opening ++ content ++ closing := by
  rw [List.mem_append, List.mem_append, not_or, not_or]
  exact ⟨⟨hopen, h⟩, hclose⟩

theorem shows_td {content w : Text} (h : Content content w) (hslot : '[' ∉ content) :
    Shows (td content) [w] :=
  ⟨Cells.cell (a := "td".toList) h rfl (by decide), notMem_framed hslot (by decide) (by decide)⟩

theorem Plain.shows {w : Text} (h : Plain w) : Shows (td w) [w] :=
  shows_td (Content.plain h.notMem_tag) h.notMem_slot

theorem Plain.shows_ts {w : Text} (h : Plain w) : Shows (td_ts w) [w] :=
  ⟨Cells.cell (a := "td class='ts-class'".toList) (Content.plain h.notMem_tag) rfl (by decide),
    notMem_framed h.notMem_slot (by decide) (by decide)⟩

theorem notMem_intercalate {c : Char} {separator : Text} (hseparator : c ∉ separator) :
    ∀ {texts : List Text}, (∀ text ∈ texts, c ∉ text) → c ∉ separator.intercalate texts
  | [], _ => by
      simp
  | [text], h => by
      simpa using h
  | text :: text' :: texts, h => by
      have htext := h text List.mem_cons_self
      have hrest := notMem_intercalate hseparator fun t ht => h t (List.mem_cons_of_mem text ht)
      simpa [htext, hseparator] using hrest

theorem plain_nil : Plain [] := fun _ hc => absurd hc List.not_mem_nil

section Rows

variable [Unicode] [Texts]

omit [Texts] in
theorem content_render_asset (asset : Asset) :
    Content (render_asset asset) (shown_asset asset) := by
  have hbreak : "<br/>Class: ".toList = tag ['b', 'r', '/'] ++ "Class: ".toList := rfl
  have hsymbol : Plain "Symbol: ".toList := plain_of_all rfl
  have hclass : Plain "Class: ".toList := plain_of_all rfl
  unfold render_asset shown_asset
  rw [hbreak]
  exact Content.lines (hsymbol.append (plain_shown_symbol asset.symbol)).notMem_tag
    (hclass.append asset.class'.plain_debug).notMem_tag

omit [Texts] in
theorem shows_asset (asset : Asset) : Shows (td (render_asset asset)) [shown_asset asset] := by
  have hsymbol : Plain "Symbol: ".toList := plain_of_all rfl
  apply shows_td (content_render_asset asset)
  unfold render_asset
  rw [List.append_assoc]
  rw [List.mem_append, not_or]
  refine ⟨(hsymbol.append (plain_shown_symbol asset.symbol)).notMem_slot, ?_⟩
  rw [List.mem_append, not_or]
  exact ⟨by decide, asset.class'.plain_debug.notMem_slot⟩

omit [Unicode] in
/-- **A proper result** is rendered, in seven cells. Each cell is a number, a fixed text or an
error, all of which are plain, so the cells are read back as they were written. An error fills the
second cell and leaves the others empty. -/
theorem render_result_spec {result : GetExchangeRateResult} (h : Proper result) :
    ∃ text, render_result result = some text ∧ Shows text (shown_result result) := by
  cases result with
  | error error =>
      have herror : Plain error.debug := Worded.plain_debug h
      have hempty : Shows (td []) [[]] := plain_nil.shows
      exact ⟨_, rfl, (((((hempty.append herror.shows).append hempty).append hempty).append
        hempty).append hempty).append hempty⟩
  | ok rate =>
      have hdecimals : rate.metadata.decimals ≤ 2 * DECIMALS := h
      -- the forex timestamp is optional
      have hforex : Plain ((rate.metadata.forex_timestamp.map display).getD "None".toList) := by
        cases rate.metadata.forex_timestamp with
        | none => exact plain_of_all rfl
        | some timestamp => exact plain_display timestamp
      unfold render_result
      dsimp only
      -- neither the rate nor the deviation panics
      rw [format_scaled_value_eq hdecimals, format_scaled_value_eq hdecimals]
      refine ⟨_, rfl, ?_⟩
      exact ((((((plain_display _).shows_ts.append plain_nil.shows).append
        (plain_scaled _ _).shows).append (plain_display _).shows).append
        (plain_display _).shows).append (plain_scaled _ _).shows).append hforex.shows_ts

/-- **The row of a proper entry** reads back. The principal, the assets and the timestamp are in
front of the seven cells of the result. No cell has a bracket in it, which the page needs for its
placeholders. -/
theorem render_request_log_entry_spec {entry : RequestLogEntry} (h : Proper entry.result) :
    ∃ text, render_request_log_entry entry = some text ∧ Markup.Rows text [shown entry]
      ∧ '[' ∉ text := by
  obtain ⟨result, hresult, hshows⟩ := render_result_spec h
  have hcells := (((((plain_display entry.timestamp).shows_ts.append
    (plain_principal entry.caller).shows).append (shows_asset entry.request.base_asset)).append
    (shows_asset entry.request.quote_asset)).append
    (plain_debug_option entry.request.timestamp).shows).append hshows
  unfold render_request_log_entry
  rw [hresult]
  exact ⟨_, rfl, Rows.row hcells.1, notMem_framed hcells.2 (by decide) (by decide)⟩

/-- The rows of a log, if its results are proper. -/
theorem render_rows_spec :
    ∀ {entries : List RequestLogEntry}, (∀ entry ∈ entries, Proper entry.result) →
      ∃ rows, entries.mapM render_request_log_entry = some rows
        ∧ List.Forall₂ (fun text row => Markup.Rows text [row]) rows (entries.map shown)
        ∧ ∀ text ∈ rows, '[' ∉ text
  | [], _ => ⟨[], rfl, .nil, fun _ htext => absurd htext List.not_mem_nil⟩
  | entry :: entries, h => by
      obtain ⟨text, htext, hrow, hslot⟩ :=
        render_request_log_entry_spec (h entry List.mem_cons_self)
      obtain ⟨rows, hrows, hshown, hslots⟩ :=
        render_rows_spec fun e he => h e (List.mem_cons_of_mem _ he)
      refine ⟨text :: rows, ?_, .cons hrow hshown, ?_⟩
      · rw [List.mapM_cons, htext, hrows]
        rfl
      · exact List.forall_mem_cons.mpr ⟨hslot, hslots⟩

end Rows

/-! ## The table of a log

Rows are joined by line ends and put between a front and a back that have no cells of their own.
The headings are a row, but of another kind of cell, so that the reader finds it empty. -/

/-- The headings of the columns. -/
def headings : Text :=
  ["Timestamp", "Canister ID", "Base Asset", "Quote Asset", "Request Timestamp",
    "Response Timestamp", "Error (if occurred)", "Rate", "Base Asset Received Rates",
    "Quote Asset Received Rates", "Std dev", "Forex Timestamp"].flatMap fun heading =>
      "\n            <th>".toList ++ heading.toList ++ "</th>".toList

/-- The table before its rows. -/
def table_front : Text :=
  "\n<table>\n    <thead>\n        ".toList
    ++ (tag ['t', 'r'] ++ (headings ++ "\n        ".toList) ++ tag ['/', 't', 'r'])
    ++ "\n    </thead>\n    <tbody>".toList

/-- The table behind its rows. -/
def table_back : Text := "</tbody>\n</table>\n".toList

set_option maxRecDepth 4000 in
theorem table_eq : REQUEST_LOG_TABLE.toList = table_front ++ ("[ROWS]".toList ++ table_back) :=
  Exchange.of_characters (fun characters =>
    characters = table_front ++ ("[ROWS]".toList ++ table_back)) rfl (by decide +kernel)

/-- The headings are a row without cells. -/
theorem rows_front : Markup.Rows table_front [[]] := by
  have hbefore : Cells "\n<table>\n    <thead>\n        ".toList [] :=
    Cells.bare (by decide +kernel) (by decide +kernel)
  have hheadings : Cells (headings ++ "\n        ".toList) [] :=
    Cells.bare (by decide +kernel) (by decide +kernel)
  have hbehind : Cells "\n    </thead>\n    <tbody>".toList [] :=
    Cells.bare (by decide +kernel) (by decide +kernel)
  exact (hbefore.no_rows.append (Rows.row hheadings)).append hbehind.no_rows

theorem rows_back : Markup.Rows table_back [] := by
  have hcells : Cells table_back [] := Cells.bare (by decide +kernel) (by decide +kernel)
  exact hcells.no_rows

section Tables

variable [Unicode] [Texts]

/-- **The table of a log** whose results are proper has its entries for rows. The cells of the
header are of another kind than those of the entries, so its row reads as an empty one. -/
theorem render_request_log_entries_spec {log : RequestLog}
    (h : ∀ entry ∈ log.entries, Proper entry.result) :
    ∃ table, render_request_log_entries log = some table
      ∧ Markup.read table = [] :: log.entries.map shown ∧ '[' ∉ table := by
  obtain ⟨rows, hrows, hshown, hslots⟩ := render_rows_spec h
  have hfront : '[' ∉ table_front := by decide +kernel
  have hback : '[' ∉ table_back := by decide +kernel
  -- the table has one placeholder, which stands between two texts without brackets
  have hfilled : Template.replace "[ROWS]".toList ([' '].intercalate rows) REQUEST_LOG_TABLE.toList
      = table_front ++ ([' '].intercalate rows ++ table_back) := by
    rw [table_eq]
    exact Template.replace_between (Template.clear_of_notMem hfront)
      (Template.clear_of_notMem hback)
  refine ⟨table_front ++ ([' '].intercalate rows ++ table_back), ?_, ?_, ?_⟩
  · unfold render_request_log_entries
    rw [hrows, ← hfilled]
    rfl
  · have hspace : '<' ∉ [' '] := by decide
    have hall := rows_front.append ((Rows.intercalate hspace hshown).append rows_back)
    rw [hall.read, List.append_nil]
    rfl
  · rw [List.mem_append, List.mem_append, not_or, not_or]
    exact ⟨hfront, notMem_intercalate (by decide) hslots, hback⟩

end Tables

/-! ## The page is filled at once

The document cut at its four placeholders. As neither the tables nor the metadata hold the
bracket a placeholder begins with, each replacement finds its own placeholder and no other. -/

/-- The body up to the first placeholder. -/
def body_front : Text := "    <body>\n        <h3>Metadata</h3>\n        ".toList

/-- The document up to its first placeholder. -/
def document_front : Text :=
  DOCUMENT_STYLE.toList ++ (DOCUMENT_LOOP.toList ++ (DOCUMENT_DATES.toList ++ body_front))

/-- The document behind its last placeholder. -/
def document_back : Text := "\n    </body>\n</html>\n".toList

def PRIVILEGED_HEADING : Text :=
  "\n        <h3>Requests from Privileged Canisters</h3>\n        ".toList

def NONPRIVILEGED_HEADING : Text :=
  "\n        <h3>Requests from Other Canisters</h3>\n        ".toList

set_option maxRecDepth 4000 in
theorem body_eq : DOCUMENT_BODY.toList = body_front ++ ("[METADATA]".toList ++ ("\n        ".toList
    ++ ("[FOREX_COLLECTOR_STATE]".toList ++ (PRIVILEGED_HEADING ++ ("[PRIVILEGED_LOGS]".toList
      ++ (NONPRIVILEGED_HEADING ++ ("[NONPRIVILEGED_LOGS]".toList ++ document_back))))))) :=
  Exchange.of_characters (fun characters => characters = _) rfl (by decide +kernel)

theorem document_eq : DOCUMENT.toList = document_front ++ ("[METADATA]".toList
    ++ ("\n        ".toList ++ ("[FOREX_COLLECTOR_STATE]".toList ++ (PRIVILEGED_HEADING
      ++ ("[PRIVILEGED_LOGS]".toList ++ (NONPRIVILEGED_HEADING
        ++ ("[NONPRIVILEGED_LOGS]".toList ++ document_back))))))) := by
  unfold DOCUMENT document_front
  rw [String.toList_append, String.toList_append, String.toList_append, body_eq]
  simp only [List.append_assoc]

set_option maxRecDepth 4000 in
/-- The only bracket of the script is an index. -/
theorem document_front_clear {d : Char} (h : d ∈ ['M', 'F', 'P', 'N']) :
    Template.clear '[' d document_front = true := by
  have hstyle : '[' ∉ DOCUMENT_STYLE.toList :=
    Exchange.of_characters (fun characters => '[' ∉ characters) rfl (by decide +kernel)
  have hloop : (['M', 'F', 'P', 'N'].all fun d => Template.clear '[' d DOCUMENT_LOOP.toList)
      = true :=
    Exchange.of_characters (fun characters => (['M', 'F', 'P', 'N'].all fun d =>
      Template.clear '[' d characters) = true) rfl (by decide +kernel)
  have hdates : '[' ∉ DOCUMENT_DATES.toList :=
    Exchange.of_characters (fun characters => '[' ∉ characters) rfl (by decide +kernel)
  have hbody : '[' ∉ body_front := by decide
  refine Template.clear_append ?_ (Template.clear_of_notMem hstyle)
  refine Template.clear_append ?_ (List.all_eq_true.mp hloop d h)
  exact Template.clear_append (Template.clear_of_notMem hbody) (Template.clear_of_notMem hdates)

/-- The page, with a text for each placeholder. -/
def page (metadata collectors privileged nonprivileged : Text) : Text :=
  document_front ++ (metadata ++ ("\n        ".toList ++ (collectors ++ (PRIVILEGED_HEADING
    ++ (privileged ++ (NONPRIVILEGED_HEADING ++ (nonprivileged ++ document_back)))))))

/-- **One replacement after the other fills the page**, with texts without placeholders. The
replacements are made in one text after the other, so what was filled in is searched again: a
placeholder in it would be replaced as well. The texts have no opening bracket, and that settles
it. -/
theorem replace_page {metadata collectors privileged : Text} (nonprivileged : Text)
    (hmetadata : '[' ∉ metadata) (hcollectors : '[' ∉ collectors) (hprivileged : '[' ∉ privileged) :
    Template.replace "[NONPRIVILEGED_LOGS]".toList nonprivileged
        (Template.replace "[PRIVILEGED_LOGS]".toList privileged
          (Template.replace "[FOREX_COLLECTOR_STATE]".toList collectors
            (Template.replace "[METADATA]".toList metadata DOCUMENT.toList)))
      = page metadata collectors privileged nonprivileged := by
  have hM : "[METADATA]".toList = '[' :: 'M' :: "ETADATA]".toList := rfl
  have hF : "[FOREX_COLLECTOR_STATE]".toList = '[' :: 'F' :: "OREX_COLLECTOR_STATE]".toList := rfl
  have hP : "[PRIVILEGED_LOGS]".toList = '[' :: 'P' :: "RIVILEGED_LOGS]".toList := rfl
  have hN : "[NONPRIVILEGED_LOGS]".toList = '[' :: 'N' :: "ONPRIVILEGED_LOGS]".toList := rfl
  -- behind each placeholder stand only others
  have hbehindM : Template.clear '[' 'M' ("\n        ".toList ++ ("[FOREX_COLLECTOR_STATE]".toList
      ++ (PRIVILEGED_HEADING ++ ("[PRIVILEGED_LOGS]".toList ++ (NONPRIVILEGED_HEADING
        ++ ("[NONPRIVILEGED_LOGS]".toList ++ document_back)))))) = true := by
    decide +kernel
  have hbehindF : Template.clear '[' 'F' (PRIVILEGED_HEADING ++ ("[PRIVILEGED_LOGS]".toList
      ++ (NONPRIVILEGED_HEADING ++ ("[NONPRIVILEGED_LOGS]".toList ++ document_back)))) = true := by
    decide +kernel
  have hbehindP : Template.clear '[' 'P' (NONPRIVILEGED_HEADING
      ++ ("[NONPRIVILEGED_LOGS]".toList ++ document_back)) = true := by
    decide +kernel
  have hbehindN : Template.clear '[' 'N' document_back = true := by
    decide +kernel
  -- before it stands nothing of its name
  have hgap : '[' ∉ "\n        ".toList := by decide
  have hheading : '[' ∉ PRIVILEGED_HEADING := by decide
  have hheading' : '[' ∉ NONPRIVILEGED_HEADING := by decide
  rw [hF, hP, hN] at hbehindM
  rw [hP, hN] at hbehindF
  rw [hN] at hbehindP
  rw [document_eq, hM, hF, hP, hN]
  rw [Template.replace_between (document_front_clear (d := 'M') (by decide)) hbehindM]
  rw [Template.replace_clear (document_front_clear (d := 'F') (by decide)),
    Template.replace_clear (Template.clear_of_notMem hmetadata),
    Template.replace_between (Template.clear_of_notMem hgap) hbehindF]
  rw [Template.replace_clear (document_front_clear (d := 'P') (by decide)),
    Template.replace_clear (Template.clear_of_notMem hmetadata),
    Template.replace_clear (Template.clear_of_notMem hgap),
    Template.replace_clear (Template.clear_of_notMem hcollectors),
    Template.replace_between (Template.clear_of_notMem hheading) hbehindP]
  rw [Template.replace_clear (document_front_clear (d := 'N') (by decide)),
    Template.replace_clear (Template.clear_of_notMem hmetadata),
    Template.replace_clear (Template.clear_of_notMem hgap),
    Template.replace_clear (Template.clear_of_notMem hcollectors),
    Template.replace_clear (Template.clear_of_notMem hheading),
    Template.replace_clear (Template.clear_of_notMem hprivileged),
    Template.replace_between (Template.clear_of_notMem hheading') hbehindN]
  rfl

/-! ## The rest of the page

The metadata and the collectors hold no brackets either. For the collectors this needs an
invariant, as they show the names of sources: only those of `forex.rs` are ever collected. -/

set_option maxRecDepth 4000 in
/-- The table of the metadata, cut at its placeholders. -/
theorem metadata_table_spec : ∃ front exchanges sources back : Text,
    METADATA_TABLE.toList = front ++ ("[EXCHANGES_NUM]".toList ++ (exchanges
        ++ ("[FOREX_SOURCES_NUM]".toList ++ (sources
          ++ ("[PRIVILEGED_CANISTER_IDS]".toList ++ back)))))
      ∧ '[' ∉ front ∧ '[' ∉ exchanges ∧ '[' ∉ sources ∧ '[' ∉ back := by
  refine ⟨"\n<table>\n    <tr>\n        <th># of Crypto Exchanges</th>\n        <td>".toList,
    "</td>\n    </tr>\n    <tr>\n        <th># of Forex Sources</th>\n        <td>".toList,
    "</td>\n    </tr>\n    <tr>\n        <th>Privileged Canister IDs</th>\n        <td>\n".toList
      ++ "            <table>".toList,
    "</table>\n        </td>\n    </tr>\n</table>\n".toList, ?_, ?_⟩
  · exact Exchange.of_characters (fun characters => characters = _) rfl (by decide +kernel)
  · decide +kernel

section Page

variable [Features] [Texts]

theorem notMem_metadata : '[' ∉ render_metadata := by
  have hE : "[EXCHANGES_NUM]".toList = '[' :: 'E' :: "XCHANGES_NUM]".toList := rfl
  have hF : "[FOREX_SOURCES_NUM]".toList = '[' :: 'F' :: "OREX_SOURCES_NUM]".toList := rfl
  have hP : "[PRIVILEGED_CANISTER_IDS]".toList
      = '[' :: 'P' :: "RIVILEGED_CANISTER_IDS]".toList := rfl
  obtain ⟨front, exchanges, sources, back, htable, hfront, hexchanges, hsources, hback⟩ :=
    metadata_table_spec
  have hids : '[' ∉ PRIVILEGED_CANISTER_IDS.flatMap fun id =>
      "<tr><td><code>".toList ++ (Texts.principal id).toList ++ "</code></td></tr>".toList := by
    intro hmem
    obtain ⟨id, -, hid⟩ := List.mem_flatMap.mp hmem
    exact notMem_framed (plain_principal id).notMem_slot (by decide) (by decide) hid
  have hnumber : ∀ n, '[' ∉ display n := fun n => (plain_display n).notMem_slot
  -- behind each placeholder its first two characters do not occur again
  have hbehindE : Template.clear '[' 'E' (exchanges ++ ('[' :: 'F' :: "OREX_SOURCES_NUM]".toList
      ++ (sources ++ ('[' :: 'P' :: "RIVILEGED_CANISTER_IDS]".toList ++ back)))) = true := by
    refine Template.clear_append ?_ (Template.clear_of_notMem hexchanges)
    refine Template.clear_append ?_ (by decide)
    refine Template.clear_append ?_ (Template.clear_of_notMem hsources)
    exact Template.clear_append (Template.clear_of_notMem hback) (by decide)
  have hbehindF : Template.clear '[' 'F'
      (sources ++ ('[' :: 'P' :: "RIVILEGED_CANISTER_IDS]".toList ++ back)) = true := by
    refine Template.clear_append ?_ (Template.clear_of_notMem hsources)
    exact Template.clear_append (Template.clear_of_notMem hback) (by decide)
  unfold render_metadata
  rw [htable, hE, hF, hP]
  rw [Template.replace_between (Template.clear_of_notMem hfront) hbehindE]
  rw [Template.replace_clear (Template.clear_of_notMem hfront),
    Template.replace_clear (Template.clear_of_notMem (hnumber _)),
    Template.replace_between (Template.clear_of_notMem hexchanges) hbehindF]
  rw [Template.replace_clear (Template.clear_of_notMem hfront),
    Template.replace_clear (Template.clear_of_notMem (hnumber _)),
    Template.replace_clear (Template.clear_of_notMem hexchanges),
    Template.replace_clear (Template.clear_of_notMem (hnumber _)),
    Template.replace_between (Template.clear_of_notMem hsources) (Template.clear_of_notMem hback)]
  simp only [List.mem_append, not_or]
  exact ⟨hfront, hnumber _, hexchanges, hnumber _, hsources, hids, hback⟩

end Page

/-- A collector of answers of the sources of `forex.rs`. The names of the sources are fixed texts,
so that the page can be shown to read back. -/
def ForexRatesCollector.Known (self : ForexRatesCollector) : Prop :=
  ∀ odc ∈ self.days, ∀ source ∈ odc.sources, ∃ forex : Forex, source = forex.to_string

theorem ForexRatesCollector.Known.update {self : ForexRatesCollector} (h : self.Known)
    (forex : Forex) (timestamp : ℕ) (rates : ForexRateMap) :
    (self.update forex.to_string timestamp rates).1.Known := by
  intro odc hodc source hsource
  rcases mem_days_update hodc with hold | ⟨old, hold, -, rfl⟩ | ⟨-, rfl⟩
  · exact h odc hold source hsource
  · rcases Finset.mem_insert.mp (old.sources_update_subset _ _ hsource) with rfl | hmem
    · exact ⟨forex, rfl⟩
    · exact h old hold source hmem
  · rcases Finset.mem_insert.mp
      (OneDayRatesCollector.sources_update_subset _ _ _ hsource) with rfl | hmem
    · exact ⟨forex, rfl⟩
    · exact absurd hmem (Finset.notMem_empty source)

/-- The first loop of an update keeps to the sources. -/
theorem ForexRatesCollector.Known.collected {results : List (String × ℕ × ForexRateMap)}
    (hresults : ∀ result ∈ results, ∃ forex : Forex, result.1 = forex.to_string) :
    ∀ {acc : ForexRatesCollector × List ℕ}, acc.1.Known →
      (results.foldl periodic.collect_step acc).1.Known := by
  induction results with
  | nil => exact fun h => h
  | cons result results ih =>
      intro acc h
      obtain ⟨forex, hforex⟩ := hresults result List.mem_cons_self
      rw [List.foldl_cons]
      apply ih fun r hr => hresults r (List.mem_cons_of_mem _ hr)
      show (acc.1.update result.1 result.2.1 result.2.2).1.Known
      rw [hforex]
      exact h.update forex _ _

/-- **The collector of a run knows its sources.** Only answers add to it, each under the name of
the source that was asked. -/
theorem known_run [Features] [Calendar] (updates : List periodic.ForexEvent) :
    (periodic.run periodic.ForexState.new updates).collector.Known := by
  have hempty : ForexRatesCollector.new.Known := fun odc hodc => absurd hodc List.not_mem_nil
  induction updates using List.reverseRecOn with
  | nil => exact hempty
  | append_singleton updates event ih =>
      rw [periodic.run, List.foldl_append]
      rw [periodic.run] at ih
      cases event with
      | heartbeat timestamp =>
          show (periodic.start_update _ timestamp).collector.Known
          unfold periodic.start_update
          split
          · exact ih
          · split
            · exact ih
            · exact ih
      | answers answer =>
          show (periodic.finish_update _ answer).collector.Known
          unfold periodic.finish_update
          split
          · exact ih
          · refine ForexRatesCollector.Known.collected ?_ ih
            intro result hresult
            obtain ⟨⟨forex, day⟩, -, hsome⟩ := List.mem_filterMap.mp hresult
            dsimp only at hsome
            -- an answer carries the name of the source it is from
            split at hsome
            · split at hsome
              · cases hsome
              · cases hsome
                exact ⟨forex, rfl⟩
            · cases hsome
      -- an upgrade starts with an empty collector
      | upgraded => exact hempty

theorem notMem_collectors {collector : ForexRatesCollector} (h : collector.Known) :
    '[' ∉ render_forex_collectors collector := by
  intro hmem
  obtain ⟨timestamp, -, htext⟩ := List.mem_flatMap.mp hmem
  -- only names of sources are listed, each of which is checked
  have hsource : ∀ text ∈ (((collector.get_sources timestamp).getD ∅).sort).map String.toList,
      '[' ∉ text := by
    intro text htext
    obtain ⟨source, hsource, rfl⟩ := List.mem_map.mp htext
    rw [Finset.mem_sort] at hsource
    unfold ForexRatesCollector.get_sources at hsource
    cases hfind : collector.days.find? fun odc => decide (odc.timestamp = timestamp) with
    | none =>
        rw [hfind] at hsource
        exact absurd hsource (Finset.notMem_empty source)
    | some odc =>
        rw [hfind] at hsource
        obtain ⟨forex, rfl⟩ := h odc (List.mem_of_find?_eq_some hfind) source hsource
        cases forex <;> decide
  unfold render_forex_collector at htext
  dsimp only at htext
  rcases List.mem_append.mp htext with htitle | htable
  · exact notMem_framed (plain_display timestamp).notMem_slot (by decide +kernel)
      (by decide +kernel) htitle
  · exact notMem_framed (notMem_intercalate (by decide) hsource) (by decide +kernel)
      (by decide +kernel) htable

/-! ## Runs

All results in the logs are proper after any run, by `Outcomes.lean`, so that both tables are
rendered. What is left to show is that the page around them adds no rows. -/

/-- The page of two tables. -/
theorem render_of_tables {L : Type} [Features] [Unicode] [Texts] {collector : ForexRatesCollector}
    {served : Served L} {privileged nonprivileged : Text}
    (htrue : render_request_log_entries (served.log_of true) = some privileged)
    (hfalse : render_request_log_entries (served.log_of false) = some nonprivileged)
    (hcollectors : '[' ∉ render_forex_collectors collector) (hprivileged : '[' ∉ privileged) :
    render collector served
      = some (page render_metadata (render_forex_collectors collector) privileged
        nonprivileged) := by
  rw [← replace_page nonprivileged notMem_metadata hcollectors hprivileged]
  unfold render
  rw [htrue, hfalse]
  rfl

theorem get_dashboard_of_render {L : Type} [Features] [Unicode] [Texts]
    {collector : ForexRatesCollector} {served : Served L} {body : Text}
    (h : render collector served = some body) :
    ∃ response, get_dashboard collector served = some response ∧ response.body = body := by
  unfold get_dashboard
  rw [h]
  exact ⟨_, rfl, rfl⟩

/-- **The dashboard shows the logs, and nothing of what was sent but text.** After any run of the
endpoint from a state whose forex rates the forex update has stored, and any run of the forex
update, the page is rendered: no rate in the logs has too many decimals to be scaled. It is the
document with all its placeholders filled in, and a reader finds in the two tables of requests the
rows of the entries of the two logs, each cell as it was put in, whatever symbols were sent.

Three parts: the rows, which are rendered because the results in the logs are proper
(`logged_outcomes`); the tables around them, which a reader of tags takes apart again; and the
page, in which no text that is put in holds the beginning of a placeholder. -/
theorem Service.dashboard_shows_the_logs [Features] [Unicode] [Calendar] [Texts] {L : Type}
    [LruCache L CacheKey QueriedExchangeRate] {s : State L} (hstore : s.forex_store.Stored)
    (events : List Event) (hstored : ∀ event ∈ events, event.Stored)
    (updates : List periodic.ForexEvent) :
    ∃ (tables : Bool → Text) (response : HttpResponse),
      get_dashboard (periodic.run periodic.ForexState.new updates).collector
          ((Service.new s).run events).served = some response
        ∧ response.body = page render_metadata
          (render_forex_collectors (periodic.run periodic.ForexState.new updates).collector)
          (tables true) (tables false)
        ∧ ∀ privileged, Markup.read (tables privileged)
          = [] :: (((Service.new s).run events).served.log_of privileged).entries.map shown := by
  -- what a run has logged is proper, so both tables are rendered
  have htables : ∀ privileged, ∃ table,
      render_request_log_entries (((Service.new s).run events).served.log_of privileged)
          = some table
        ∧ Markup.read table
          = [] :: (((Service.new s).run events).served.log_of privileged).entries.map shown
        ∧ '[' ∉ table :=
    fun privileged => render_request_log_entries_spec
      (Service.logged_outcomes hstore events hstored privileged)
  choose tables hrendered hread hslots using htables
  obtain ⟨response, hresponse, hbody⟩ := get_dashboard_of_render
    (render_of_tables (hrendered true) (hrendered false) (notMem_collectors (known_run updates))
      (hslots true))
  exact ⟨tables, response, hresponse, hbody, hread⟩

theorem alphanumeric_of_all {s : String}
    (h : (s.toList.all fun c => decide (c.isAlphanum = true ∨ c = '-')) = true) :
    ∀ c ∈ s.toList, c.isAlphanum = true ∨ c = '-' :=
  fun c hc => of_decide_eq_true (List.all_eq_true.mp h c hc)

/-- The texts of the principals in sight; the rest of a text is not escaped. -/
@[reducible] def asciiTexts : Texts where
  principal id :=
    if id.bytes = [1] then "uuc56-gyb"
    else if id.bytes = [0, 0, 0, 0, 0, 0, 0, 4, 1, 1] then "rkp4c-7iaaa-aaaaa-aaaca-cai"
    else if id.bytes = [0, 0, 0, 0, 0, 0, 0, 8, 1, 1] then "qoctq-giaaa-aaaaa-aaaea-cai"
    else if id.bytes = [0, 0, 0, 0, 0, 0, 0, 1, 1, 1] then "rrkah-fqaaa-aaaaa-aaaaq-cai"
    else "aaaaa-aa"
  escape_debug c := if c = '"' ∨ c = '\\' then ['\\', c] else [c]
  principal_alphanumeric id := by
    split_ifs <;> exact alphanumeric_of_all (by decide +kernel)
  escape_debug_ascii c _ _ hquote hslash := if_neg (not_or.mpr ⟨hquote, hslash⟩)

/-- A request for a tag, in euros. -/
def tagCall : List Event :=
  [.call (Environment.ordinary 1_699_833_630)
    ⟨⟨"<td>", .FiatCurrency⟩, ⟨"EUR", .FiatCurrency⟩, some 1_699_833_600⟩]

/-- What is sent as a tag is no symbol, and nothing is left of it. -/
theorem tag_is_not_shown :
    letI := defaultBuild
    letI := asciiUnicode
    letI := weekdays
    letI := asciiTexts
    ∃ (tables : Bool → Text) (response : HttpResponse),
      get_dashboard ForexRatesCollector.new
          ((Service.new (State.new : State RecentRates)).run tagCall).served = some response
        ∧ response.body = page render_metadata [] (tables true) (tables false)
        ∧ (Markup.read (tables false)).map (List.map String.ofList)
          = [[], ["1699833630", "uuc56-gyb", "Symbol: \nClass: FiatCurrency",
            "Symbol: EUR\nClass: FiatCurrency", "Some(1699833600)", "",
            "Other(OtherError \x7b code: 2, description: \"Base asset symbol is invalid\" \x7d)",
            "", "", "", "", ""]] := by
  let _ := defaultBuild
  let _ := asciiUnicode
  let _ := weekdays
  let _ := asciiTexts
  have hstored : ∀ event ∈ tagCall, event.Stored := by
    intro event hevent
    rw [List.mem_singleton.mp hevent]
    trivial
  -- the log of the run is evaluated, and the page is not
  obtain ⟨tables, response, hresponse, hbody, hread⟩ := Service.dashboard_shows_the_logs
    (s := (State.new : State RecentRates)) ⟨[], rfl⟩ tagCall hstored []
  refine ⟨tables, response, hresponse, hbody, ?_⟩
  rw [hread false]
  decide +kernel

end Xrc
