import Felicia.Channel.WebSocketRequestGrammar
import Felicia.Util.StringToInt

/-!
# The extensions of a WebSocket

`WebSocketExtension::Negotiate` of `felicia/core/channel/socket/web_socket_extension.cc` and
`PermessageDeflate` of `permessage_deflate.cc`, the one extension there is. A handshake offers
extensions in the order it prefers them, and every offer is read by the same object: its members are
set anew by each offer, also by one that is then refused.

`negotiate_iff` says which texts are accepted: those with an offer of the grammar behind offers of
`permessage-deflate` that are not of the grammar. What the object keeps then is what it read of that
offer alone (`Accepts.deflate_eq`). `replyTo_cases` is what the handshake that asks answers.

A value that is empty, with or without quotes, is no value. The `DCHECK` of
`PermessageDeflate::Negotiate` is left out: its caller asks only where the extension is enabled.
-/

set_option autoImplicit false
set_option relaxedAutoImplicit false

namespace Felicia

open Support StringToInt

/-! ### Negotiation -/

/-- `net::WebSocketDeflater::ContextTakeOverMode`. -/
inductive ContextTakeOverMode
  | doNotTakeOverContext | takeOverContext
  deriving DecidableEq

/-- `channel::WSSettings`, as far as an extension reads it. -/
structure WSSettings where
  serverMaxWindowBits : UInt8 := 10

/-- `PermessageDeflate`. -/
structure PermessageDeflate where
  clientContextTakeOverMode : ContextTakeOverMode
  serverContextTakeOverMode : ContextTakeOverMode
  clientMaxWindowBits : ℤ
  serverMaxWindowBits : ℤ
  deriving DecidableEq

/-- `kKey`. -/
def kKey : String := "permessage-deflate"

/-- `kMinWindowBits`. -/
def kMinWindowBits : ℤ := 8

/-- `kMaxWindowBits`. -/
def kMaxWindowBits : ℤ := 15

def kClientNoContextTakeover : String := "client_no_context_takeover"

def kServerNoContextTakeover : String := "server_no_context_takeover"

def kClientMaxWindowBits : String := "client_max_window_bits"

def kServerMaxWindowBits : String := "server_max_window_bits"

/-- The quotation mark. -/
def quote : Char := '\x22'

/-- `ConsumePrefix`, for one character: what is left, if it was there. -/
def consumePrefix (text : List Char) (c : Char) : Option (List Char) :=
  if text.head? = some c then some text.tail else none

/-- `ConsumeSuffix`, for one character. -/
def consumeSuffix (text : List Char) (c : Char) : Option (List Char) :=
  if text.getLast? = some c then some text.dropLast else none

/-- A value without its quotes; nothing where the second one is missing. -/
def unquote (value : List Char) : Option (List Char) :=
  match consumePrefix value quote with
  | some rest => consumeSuffix rest quote
  | none => some value

/-- The key of a parameter. -/
def paramKey (param : List Char) : List Char := trimWhitespaceASCII (param.takeWhile (· ≠ '='))

/-- The value of a parameter. -/
def paramValue (param : List Char) : Option (List Char) :=
  if param.contains '=' then
    unquote (trimWhitespaceASCII ((param.dropWhile (· ≠ '=')).drop 1))
  else some []

/-- `CHECK_NO_VALUE`. -/
def checkNoValue (value : List Char) : Bool := value = []

/-- `VALIDATE_IF_HAVE_VALUE`, with what it leaves in `out_value`. -/
def validateIfHaveValue (value : List Char) (outValue : ℤ) : Bool × ℤ :=
  if value = [] then (true, outValue)
  else
    let (isConverted, outValue) := stringToInt value
    (isConverted && !(outValue < kMinWindowBits || outValue > kMaxWindowBits), outValue)

namespace PermessageDeflate

/-- What `Negotiate` sets the members to, before it reads a parameter. -/
def reset (settings : WSSettings) : PermessageDeflate where
  clientContextTakeOverMode := .doNotTakeOverContext
  serverContextTakeOverMode := .doNotTakeOverContext
  clientMaxWindowBits := kMaxWindowBits
  serverMaxWindowBits := settings.serverMaxWindowBits.toNat

/-- One turn of the loop of `Negotiate`: whether it goes on. -/
def readParam (deflate : PermessageDeflate) (param : List Char) : Bool × PermessageDeflate :=
  let key := paramKey param
  match paramValue param with
  | none => (false, deflate)
  | some value =>
    if key = kClientNoContextTakeover.toList then (checkNoValue value, deflate)
    else if key = kServerNoContextTakeover.toList then (checkNoValue value, deflate)
    else if key = kClientMaxWindowBits.toList then
      let (isValid, outValue) := validateIfHaveValue value deflate.clientMaxWindowBits
      (isValid, { deflate with clientMaxWindowBits := outValue })
    else if key = kServerMaxWindowBits.toList then
      -- `temp_value` is not used, nor is what it holds at first.
      ((validateIfHaveValue value 0).1, deflate)
    else (false, deflate)

/-- The loop of `Negotiate`. -/
def readParams (deflate : PermessageDeflate) : List (List Char) → Bool × PermessageDeflate
  | [] => (true, deflate)
  | param :: params =>
    match deflate.readParam param with
    | (true, deflate) => deflate.readParams params
    | (false, deflate) => (false, deflate)

/-- `PermessageDeflate::AppendResponse`. -/
def appendResponse (deflate : PermessageDeflate) (response : String) : String :=
  response ++ kKey ++
    (if deflate.clientContextTakeOverMode = .doNotTakeOverContext then
      "; " ++ kClientNoContextTakeover else "") ++
    (if deflate.serverContextTakeOverMode = .doNotTakeOverContext then
      "; " ++ kServerNoContextTakeover else "") ++
    "; " ++ kServerMaxWindowBits ++ "=" ++ toString deflate.serverMaxWindowBits

/-- `PermessageDeflate::Negotiate`: what it returns, and the members and the response it leaves. -/
def negotiate (settings : WSSettings) (params : List (List Char)) (response : String) :
    Bool × PermessageDeflate × String :=
  match (reset settings).readParams params with
  | (true, deflate) => (true, deflate, deflate.appendResponse response)
  | (false, deflate) => (false, deflate, response)

end PermessageDeflate

/-- What `WebSocketExtension::Negotiate` writes to: its one extension, and what its caller passes.
Extensions are known by their keys. -/
structure Negotiation where
  deflate : PermessageDeflate
  response : String
  acceptedExtensions : List String

namespace Negotiation

/-- The loop of `WebSocketExtension::Negotiate`. -/
def tryOffers (settings : WSSettings) : List (List Char) → Negotiation → Bool × Negotiation
  | [], negotiation => (false, negotiation)
  | offer :: offers, negotiation =>
    match stringTokens (· = ';') offer with
    | [] => (false, negotiation)
    | key :: params =>
      if trimWhitespaceASCII key ≠ kKey.toList then (false, negotiation)
      else
        match PermessageDeflate.negotiate settings params negotiation.response with
        | (true, deflate, response) =>
          (true, ⟨deflate, response, negotiation.acceptedExtensions ++ [kKey]⟩)
        | (false, deflate, response) =>
          tryOffers settings offers ⟨deflate, response, negotiation.acceptedExtensions⟩

/-- `WebSocketExtension::Negotiate`. -/
def negotiate (settings : WSSettings) (extensions : String) (negotiation : Negotiation) :
    Bool × Negotiation :=
  tryOffers settings (stringTokens (· = ',') extensions.toList) negotiation

end Negotiation

/-! ### Offers -/

/-- A value and what is inside its quotes. One that opens with a quote ends with another. -/
def Unquotes (value inner : List Char) : Prop :=
  value.head? ≠ some quote ∧ inner = value ∨ value = quote :: (inner ++ [quote])

/-- A parameter, its key and its value. -/
inductive IsParam : List Char → List Char → List Char → Prop
  | key {key : List Char} (hkey : '=' ∉ key) : IsParam key (trimWhitespaceASCII key) []
  | keyValue {key value inner : List Char} (hkey : '=' ∉ key)
      (hvalue : Unquotes (trimWhitespaceASCII value) inner) :
      IsParam (key ++ '=' :: value) (trimWhitespaceASCII key) inner

/-- No value, or an integer between 8 and 15. -/
def IsWindowBits (value : List Char) : Prop :=
  value = [] ∨ ∃ number, Denotes value number ∧ kMinWindowBits ≤ number ∧ number ≤ kMaxWindowBits

/-- The values of a key. -/
def MayHaveValue (key value : List Char) : Prop :=
  (key = kClientNoContextTakeover.toList ∨ key = kServerNoContextTakeover.toList) ∧ value = [] ∨
    (key = kClientMaxWindowBits.toList ∨ key = kServerMaxWindowBits.toList) ∧ IsWindowBits value

/-- A parameter of the grammar. -/
def IsWellFormed (param : List Char) : Prop :=
  ∃ key value, IsParam param key value ∧ MayHaveValue key value

/-- An offer of `permessage-deflate`, with its parameters. -/
def IsPermessageDeflate (offer : List Char) (params : List (List Char)) : Prop :=
  ∃ key, stringTokens (· = ';') offer = key :: params ∧ trimWhitespaceASCII key = kKey.toList

/-- An offer is of the grammar, with these parameters. -/
def IsAcceptable (offer : List Char) (params : List (List Char)) : Prop :=
  IsPermessageDeflate offer params ∧ ∀ param ∈ params, IsWellFormed param

/-- An offer is of `permessage-deflate`, but not of the grammar. -/
def IsFallenThrough (offer : List Char) : Prop :=
  ∃ params, IsPermessageDeflate offer params ∧ ¬ ∀ param ∈ params, IsWellFormed param

/-- An offer of the grammar is reached. -/
def Chooses (offers : List (List Char)) (params : List (List Char)) : Prop :=
  ∃ before offer after, offers = before ++ offer :: after ∧ IsAcceptable offer params ∧
    ∀ other ∈ before, IsFallenThrough other

/-- The response to an offer that is accepted. -/
def responseFragment (settings : WSSettings) : String :=
  "permessage-deflate; client_no_context_takeover; server_no_context_takeover; " ++
    "server_max_window_bits=" ++ toString settings.serverMaxWindowBits.toNat

variable {settings : WSSettings} {param key value inner offer : List Char}
  {offers params : List (List Char)}

/-! ### Parameters -/

theorem unquote_eq_some_iff : unquote value = some inner ↔ Unquotes value inner := by
  unfold unquote consumePrefix Unquotes
  by_cases hhead : value.head? = some quote
  · obtain ⟨rest, rfl⟩ := List.head?_eq_some_iff.mp hhead
    simp only [List.head?_cons, if_true, List.tail_cons, consumeSuffix, ne_eq, not_true_eq_false,
      false_and, false_or, List.cons.injEq, true_and]
    constructor
    · intro heq
      split_ifs at heq with hlast
      obtain ⟨front, rfl⟩ := List.getLast?_eq_some_iff.mp hlast
      rw [List.dropLast_concat] at heq
      rw [Option.some.inj heq]
    · rintro rfl
      simp
  · rw [if_neg hhead]
    simp only [Option.some.injEq, ne_eq, hhead, not_false_eq_true, true_and]
    constructor
    · exact fun heq ↦ .inl heq.symm
    · rintro (heq | rfl)
      · exact heq.symm
      · exact absurd rfl hhead

/-- A parameter has one key, and one value if its quotes are closed. -/
theorem isParam_iff :
    IsParam param key value ↔ key = paramKey param ∧ paramValue param = some value := by
  unfold paramKey paramValue
  obtain hnot | ⟨before, rest, rfl, hbefore⟩ := mem_or_cut '=' param
  · rw [takeWhile_of_not_mem hnot, if_neg (by simpa using hnot)]
    constructor
    · intro h
      cases h with
      | key hkey => exact ⟨rfl, rfl⟩
      | keyValue hkey hvalue => exact absurd (by simp) hnot
    · rintro ⟨rfl, hvalue⟩
      cases hvalue
      exact .key hnot
  · rw [takeWhile_cut hbefore, drop_dropWhile_cut hbefore, if_pos (by simp), unquote_eq_some_iff]
    constructor
    · intro h
      generalize hparam : before ++ '=' :: rest = param at h
      cases h with
      | key hkey => exact absurd (hparam ▸ by simp) hkey
      | keyValue hkey hvalue =>
        have htake := congrArg (List.takeWhile (· ≠ '=')) hparam
        rw [takeWhile_cut hbefore, takeWhile_cut hkey] at htake
        subst htake
        obtain rfl : rest = _ := by simpa using hparam
        exact ⟨rfl, hvalue⟩
    · rintro ⟨rfl, hvalue⟩
      exact .keyValue hbefore hvalue

theorem isWellFormed_iff : IsWellFormed param ↔
    ∃ value, paramValue param = some value ∧ MayHaveValue (paramKey param) value := by
  constructor
  · rintro ⟨key, value, hparam, hvalue⟩
    obtain ⟨rfl, hread⟩ := isParam_iff.mp hparam
    exact ⟨value, hread, hvalue⟩
  · rintro ⟨value, hparam, hvalue⟩
    exact ⟨_, value, isParam_iff.mpr ⟨rfl, hparam⟩, hvalue⟩

/-- The keys differ from each other. -/
theorem mayHaveValue_iff : MayHaveValue key value ↔
    if key = kClientNoContextTakeover.toList then value = []
    else if key = kServerNoContextTakeover.toList then value = []
    else if key = kClientMaxWindowBits.toList then IsWindowBits value
    else if key = kServerMaxWindowBits.toList then IsWindowBits value
    else False := by
  unfold MayHaveValue
  split_ifs with hclient hserver hclientBits hserverBits
  · subst hclient
    rw [or_iff_left (fun h ↦ absurd h.1 (by decide +kernel)), and_iff_right (.inl rfl)]
  · subst hserver
    rw [or_iff_left (fun h ↦ absurd h.1 (by decide +kernel)), and_iff_right (.inr rfl)]
  · have hnot := not_or.mpr ⟨hclient, hserver⟩
    rw [or_iff_right (fun h ↦ hnot h.1), and_iff_right (.inl hclientBits)]
  · have hnot := not_or.mpr ⟨hclient, hserver⟩
    rw [or_iff_right (fun h ↦ hnot h.1), and_iff_right (.inr hserverBits)]
  · simp [hclient, hserver, hclientBits, hserverBits]

theorem checkNoValue_iff : checkNoValue value = true ↔ value = [] := decide_eq_true_iff

theorem validateIfHaveValue_iff (outValue : ℤ) :
    (validateIfHaveValue value outValue).1 = true ↔ IsWindowBits value := by
  unfold validateIfHaveValue IsWindowBits
  by_cases hempty : value = []
  · simp [hempty]
  · have hconverted (number : ℤ) := stringToInt_eq_iff value number
    have hmin : intMin ≤ kMinWindowBits := by decide
    have hmax : kMaxWindowBits ≤ intMax := by decide
    rw [if_neg hempty, or_iff_right hempty]
    generalize stringToInt value = converted at hconverted
    obtain ⟨isConverted, number⟩ := converted
    simp only [Prod.mk.injEq] at hconverted
    simp only [Bool.and_eq_true, Bool.not_eq_true', Bool.or_eq_false_iff, decide_eq_false_iff_not,
      not_lt, gt_iff_lt]
    constructor
    · rintro ⟨rfl, hlower, hupper⟩
      exact ⟨number, ((hconverted number).mp ⟨rfl, rfl⟩).1, hlower, hupper⟩
    · rintro ⟨denoted, hdenotes, hlower, hupper⟩
      obtain ⟨rfl, rfl⟩ :=
        (hconverted denoted).mpr ⟨hdenotes, hmin.trans hlower, hupper.trans hmax⟩
      exact ⟨rfl, hlower, hupper⟩

def IsInRange (bits : ℤ) : Prop := kMinWindowBits ≤ bits ∧ bits ≤ kMaxWindowBits

/-- Assumes: a value that is valid. What is kept is in range, if it was. -/
theorem validateIfHaveValue_isInRange {outValue : ℤ} (hrange : IsInRange outValue)
    (hvalid : (validateIfHaveValue value outValue).1 = true) :
    IsInRange (validateIfHaveValue value outValue).2 := by
  unfold validateIfHaveValue at hvalid ⊢
  split_ifs at hvalid ⊢ with hempty
  · exact hrange
  · simpa [IsInRange] using (Bool.and_eq_true_iff.mp hvalid).2

namespace PermessageDeflate

variable {deflate : PermessageDeflate}

/-- A turn goes on exactly behind a parameter of the grammar. -/
theorem readParam_iff (deflate : PermessageDeflate) (param : List Char) :
    (deflate.readParam param).1 = true ↔ IsWellFormed param := by
  rw [isWellFormed_iff]
  unfold readParam
  cases paramValue param with
  | none => simp
  | some value =>
    simp only [Option.some.injEq, exists_eq_left', mayHaveValue_iff]
    split_ifs
    · exact checkNoValue_iff
    · exact checkNoValue_iff
    · exact validateIfHaveValue_iff _
    · exact validateIfHaveValue_iff _
    · exact Iff.rfl

/-- A turn changes the window bits of the client at most. -/
theorem readParam_eq (deflate : PermessageDeflate) (param : List Char) : ∃ bits,
    (deflate.readParam param).2 = { deflate with clientMaxWindowBits := bits } ∧
      ((deflate.readParam param).1 = true → IsInRange deflate.clientMaxWindowBits →
        IsInRange bits) := by
  have hsame : deflate = { deflate with clientMaxWindowBits := deflate.clientMaxWindowBits } := rfl
  unfold readParam
  cases paramValue param with
  | none => exact ⟨_, hsame, fun _ hrange ↦ hrange⟩
  | some value =>
    dsimp only
    split_ifs
    · exact ⟨_, hsame, fun _ hrange ↦ hrange⟩
    · exact ⟨_, hsame, fun _ hrange ↦ hrange⟩
    · exact ⟨_, rfl, fun hvalid hrange ↦ validateIfHaveValue_isInRange hrange hvalid⟩
    · exact ⟨_, hsame, fun _ hrange ↦ hrange⟩
    · exact ⟨_, hsame, fun _ hrange ↦ hrange⟩

theorem readParams_cons : deflate.readParams (param :: params) =
    if (deflate.readParam param).1 then (deflate.readParam param).2.readParams params
    else (false, (deflate.readParam param).2) := by
  rw [readParams]
  obtain ⟨isValid, read⟩ := deflate.readParam param
  cases isValid <;> rfl

/-- The loop ends exactly behind parameters of the grammar. -/
theorem readParams_iff (deflate : PermessageDeflate) (params : List (List Char)) :
    (deflate.readParams params).1 = true ↔ ∀ param ∈ params, IsWellFormed param := by
  induction params generalizing deflate with
  | nil => simp [readParams]
  | cons param params ih =>
    rw [readParams_cons, List.forall_mem_cons, ← deflate.readParam_iff param]
    split_ifs with hvalid
    · rw [ih, and_iff_right hvalid]
    · exact iff_of_false id fun h ↦ hvalid h.1

/-- The loop changes the window bits of the client at most, and keeps them in range. -/
theorem readParams_eq (deflate : PermessageDeflate) (params : List (List Char)) : ∃ bits,
    (deflate.readParams params).2 = { deflate with clientMaxWindowBits := bits } ∧
      ((deflate.readParams params).1 = true → IsInRange deflate.clientMaxWindowBits →
        IsInRange bits) := by
  induction params generalizing deflate with
  | nil => exact ⟨deflate.clientMaxWindowBits, rfl, fun _ hrange ↦ hrange⟩
  | cons param params ih =>
    obtain ⟨bits, hread, hbits⟩ := deflate.readParam_eq param
    rw [readParams_cons]
    split_ifs with hvalid
    · obtain ⟨last, hreads, hlast⟩ := ih (deflate.readParam param).2
      rw [hread] at hreads hlast ⊢
      exact ⟨last, hreads, fun hvalid' hrange ↦ hlast hvalid' (hbits hvalid hrange)⟩
    · exact ⟨bits, hread, False.elim⟩

end PermessageDeflate

/-! ### Choosing -/

theorem IsPermessageDeflate.unique {params' : List (List Char)}
    (h : IsPermessageDeflate offer params) (h' : IsPermessageDeflate offer params') :
    params = params' := by
  obtain ⟨key, heq, -⟩ := h
  obtain ⟨key', heq', -⟩ := h'
  exact (List.cons.inj (heq.symm.trans heq')).2

/-- The first offer is chosen, or is not of the grammar and a later one is chosen. -/
theorem chooses_cons_iff : Chooses (offer :: offers) params ↔
    IsAcceptable offer params ∨ IsFallenThrough offer ∧ Chooses offers params := by
  constructor
  · rintro ⟨before, chosen, after, heq, hchosen, hbefore⟩
    cases before with
    | nil =>
      obtain ⟨rfl, -⟩ := List.cons.inj heq
      exact .inl hchosen
    | cons first before =>
      obtain ⟨rfl, hrest⟩ := List.cons.inj heq
      rw [List.forall_mem_cons] at hbefore
      exact .inr ⟨hbefore.1, before, chosen, after, hrest, hchosen, hbefore.2⟩
  · rintro (hchosen | ⟨hfirst, before, chosen, after, heq, hchosen, hbefore⟩)
    · exact ⟨[], offer, offers, rfl, hchosen, fun _ hmem ↦ nomatch hmem⟩
    · refine ⟨offer :: before, chosen, after, by rw [heq, List.cons_append], hchosen, ?_⟩
      exact List.forall_mem_cons.mpr ⟨hfirst, hbefore⟩

theorem not_chooses_nil : ¬ Chooses [] params := by
  rintro ⟨before, offer, after, heq, -⟩
  exact List.append_ne_nil_of_right_ne_nil before (List.cons_ne_nil offer after) heq.symm

/-- The response does not depend on the window bits of the client. -/
theorem appendResponse_eq (settings : WSSettings) (bits : ℤ) (response : String) :
    PermessageDeflate.appendResponse { PermessageDeflate.reset settings with
      clientMaxWindowBits := bits } response = response ++ responseFragment settings := by
  have hkeys : kKey ++ ("; " ++ kClientNoContextTakeover) ++ ("; " ++ kServerNoContextTakeover) ++
      "; " ++ kServerMaxWindowBits ++ "=" =
      "permessage-deflate; client_no_context_takeover; server_no_context_takeover; " ++
        "server_max_window_bits=" := by decide +kernel
  unfold PermessageDeflate.appendResponse responseFragment
  rw [← hkeys]
  simp only [PermessageDeflate.reset, if_true, String.append_assoc]
  rfl

namespace Negotiation

/-- What is left behind when an offer with certain parameters was accepted. -/
structure Accepts (settings : WSSettings) (params : List (List Char))
    (before after : Negotiation) : Prop where
  response_eq : after.response = before.response ++ responseFragment settings
  acceptedExtensions_eq : after.acceptedExtensions = before.acceptedExtensions ++ [kKey]
  /-- What earlier offers set is not there any more. -/
  deflate_eq : after.deflate = ((PermessageDeflate.reset settings).readParams params).2
  isInRange : IsInRange after.deflate.clientMaxWindowBits

/-- What is left behind when no offer was accepted. -/
structure Refuses (before after : Negotiation) : Prop where
  response_eq : after.response = before.response
  acceptedExtensions_eq : after.acceptedExtensions = before.acceptedExtensions

/-- The outcome is the one for some offers. -/
def Meets (settings : WSSettings) (offers : List (List Char)) (before : Negotiation)
    (outcome : Bool × Negotiation) : Prop :=
  if outcome.1 then ∃ params, Chooses offers params ∧ Accepts settings params before outcome.2
  else (¬ ∃ params, Chooses offers params) ∧ Refuses before outcome.2

variable {before after : Negotiation}

/-- An offer of another extension ends the loop. -/
theorem meets_of_not_permessageDeflate (h : ¬ ∃ params, IsPermessageDeflate offer params) :
    Meets settings (offer :: offers) before (false, before) := by
  refine ⟨?_, rfl, rfl⟩
  rintro ⟨params, hchooses⟩
  obtain hchosen | ⟨⟨others, hother, -⟩, -⟩ := chooses_cons_iff.mp hchooses
  · exact h ⟨params, hchosen.1⟩
  · exact h ⟨others, hother⟩

/-- Behind an offer that is not of the grammar the loop goes on as from the start. -/
theorem Meets.cons {deflate : PermessageDeflate} {outcome : Bool × Negotiation}
    (hfirst : IsFallenThrough offer)
    (h : Meets settings offers { before with deflate := deflate } outcome) :
    Meets settings (offer :: offers) before outcome := by
  unfold Meets at h ⊢
  split_ifs at h ⊢
  · obtain ⟨params, hchooses, haccepts⟩ := h
    exact ⟨params, chooses_cons_iff.mpr (.inr ⟨hfirst, hchooses⟩), haccepts.response_eq,
      haccepts.acceptedExtensions_eq, haccepts.deflate_eq, haccepts.isInRange⟩
  · refine ⟨?_, h.2.response_eq, h.2.acceptedExtensions_eq⟩
    rintro ⟨params, hchooses⟩
    obtain ⟨hdeflate, hgrammar⟩ | ⟨-, hchooses⟩ := chooses_cons_iff.mp hchooses
    · obtain ⟨others, hothers, hnot⟩ := hfirst
      exact hnot (hdeflate.unique hothers ▸ hgrammar)
    · exact h.1 ⟨params, hchooses⟩

theorem tryOffers_of_not_permessageDeflate (h : ¬ ∃ params, IsPermessageDeflate offer params) :
    tryOffers settings (offer :: offers) before = (false, before) := by
  rw [tryOffers]
  cases htokens : stringTokens (· = ';') offer with
  | nil => rfl
  | cons key params =>
    have hkey : trimWhitespaceASCII key ≠ kKey.toList := fun hkey ↦ h ⟨params, key, htokens, hkey⟩
    simp only [hkey, ne_eq, not_false_eq_true, if_true]

theorem tryOffers_of_permessageDeflate (h : IsPermessageDeflate offer params) :
    tryOffers settings (offer :: offers) before =
      let read := (PermessageDeflate.reset settings).readParams params
      if read.1 then (true, ⟨read.2, read.2.appendResponse before.response,
        before.acceptedExtensions ++ [kKey]⟩)
      else tryOffers settings offers { before with deflate := read.2 } := by
  obtain ⟨key, htokens, hkey⟩ := h
  simp only [tryOffers, htokens, hkey, ne_eq, not_true_eq_false, if_false,
    PermessageDeflate.negotiate]
  obtain ⟨isValid, deflate⟩ := (PermessageDeflate.reset settings).readParams params
  cases isValid <;> rfl

/-- Assumes: an offer of the grammar. -/
theorem accepts_of_isAcceptable (settings : WSSettings) (offers : List (List Char))
    (before : Negotiation) (h : IsAcceptable offer params) :
    (tryOffers settings (offer :: offers) before).1 = true ∧
      Accepts settings params before (tryOffers settings (offer :: offers) before).2 := by
  have hvalid := ((PermessageDeflate.reset settings).readParams_iff params).mpr h.2
  obtain ⟨bits, hread, hbits⟩ := (PermessageDeflate.reset settings).readParams_eq params
  have hinRange : IsInRange bits :=
    hbits hvalid ⟨show kMinWindowBits ≤ kMaxWindowBits by decide, le_rfl⟩
  rw [tryOffers_of_permessageDeflate h.1]
  simp only [hvalid, if_true, true_and]
  rw [hread]
  exact ⟨appendResponse_eq settings bits before.response, rfl, hread.symm, hinRange⟩

/-- The loop, from any state on. -/
theorem tryOffers_meets (settings : WSSettings) (offers : List (List Char)) (before : Negotiation) :
    Meets settings offers before (tryOffers settings offers before) := by
  induction offers generalizing before with
  | nil => exact ⟨fun ⟨params, hchooses⟩ ↦ not_chooses_nil hchooses, rfl, rfl⟩
  | cons offer offers ih =>
    by_cases hdeflate : ∃ params, IsPermessageDeflate offer params
    · obtain ⟨params, hdeflate⟩ := hdeflate
      by_cases hgrammar : ∀ param ∈ params, IsWellFormed param
      · obtain ⟨htrue, haccepts⟩ :=
          accepts_of_isAcceptable settings offers before ⟨hdeflate, hgrammar⟩
        rw [Meets, if_pos htrue]
        exact ⟨params, chooses_cons_iff.mpr (.inl ⟨hdeflate, hgrammar⟩), haccepts⟩
      · have hvalid := ((PermessageDeflate.reset settings).readParams_iff params).not.mpr hgrammar
        rw [tryOffers_of_permessageDeflate hdeflate]
        dsimp only
        rw [if_neg hvalid]
        exact (ih _).cons ⟨params, hdeflate, hgrammar⟩
    · rw [tryOffers_of_not_permessageDeflate hdeflate]
      exact meets_of_not_permessageDeflate hdeflate

/-- Whatever is offered, and whatever state earlier requests left behind: it is accepted exactly
when an offer of the grammar follows offers of `permessage-deflate` that are not of the grammar.
Then one extension and one response are appended and the members are those that this offer sets;
otherwise nothing is appended. -/
theorem negotiate_iff (settings : WSSettings) (extensions : String) (before : Negotiation) :
    ((negotiate settings extensions before).1 = true ↔
      ∃ params, Chooses (stringTokens (· = ',') extensions.toList) params) ∧
    if (negotiate settings extensions before).1 then
      ∃ params, Chooses (stringTokens (· = ',') extensions.toList) params ∧
        Accepts settings params before (negotiate settings extensions before).2
    else Refuses before (negotiate settings extensions before).2 := by
  have hmeets := tryOffers_meets settings (stringTokens (· = ',') extensions.toList) before
  unfold Meets at hmeets
  rw [← negotiate] at hmeets
  split_ifs at hmeets ⊢ with htrue
  · have hchooses := hmeets.imp fun _ h ↦ h.1
    exact ⟨iff_of_true htrue hchooses, hmeets⟩
  · exact ⟨iff_of_false htrue hmeets.1, hmeets.2⟩

/-- What the refused offer set the window bits to is gone. -/
example : (negotiate {} ("permessage-deflate; client_max_window_bits=9; invalid_param, " ++
    "permessage-deflate; client_max_window_bits") ⟨.reset {}, "", []⟩).2.deflate = .reset {} := by
  decide +kernel

end Negotiation

/-! ### The handshake -/

/-- The response of `WebSocketExtension::Negotiate` to a handshake, if it accepts. -/
def negotiatedResponse (settings : WSSettings) (deflate : PermessageDeflate)
    (extensions : String) : Option String :=
  let (isAccepted, after) := Negotiation.negotiate settings extensions ⟨deflate, "", []⟩
  if isAccepted then some after.response else none

theorem negotiatedResponse_eq_some {deflate : PermessageDeflate} {extensions : String}
    (h : ∃ params, Chooses (stringTokens (· = ',') extensions.toList) params) :
    negotiatedResponse settings deflate extensions = some (responseFragment settings) := by
  have hmeets := Negotiation.tryOffers_meets settings (stringTokens (· = ',') extensions.toList)
    ⟨deflate, "", []⟩
  unfold Negotiation.Meets at hmeets
  split_ifs at hmeets with htrue
  · obtain ⟨params, -, haccepts⟩ := hmeets
    have hresponse := haccepts.response_eq
    rw [String.empty_append] at hresponse
    unfold negotiatedResponse Negotiation.negotiate
    simp only [htrue, if_true, hresponse]
  · exact absurd h hmeets.1

theorem negotiatedResponse_eq_none {deflate : PermessageDeflate} {extensions : String}
    (h : ¬ ∃ params, Chooses (stringTokens (· = ',') extensions.toList) params) :
    negotiatedResponse settings deflate extensions = none := by
  have hmeets := Negotiation.tryOffers_meets settings (stringTokens (· = ',') extensions.toList)
    ⟨deflate, "", []⟩
  unfold Negotiation.Meets at hmeets
  split_ifs at hmeets with htrue
  · exact absurd (hmeets.imp fun _ hparams ↦ hparams.1) h
  · unfold negotiatedResponse Negotiation.negotiate
    simp only [htrue, if_false, Bool.false_eq_true]

/-- Assumes: a handler that negotiates with these settings, and a request that offers extensions. It
is answered with the response to an offer of the grammar, or refused for want of one. -/
theorem HandshakeEnv.replyTo_cases {env : HandshakeEnv} {deflate : PermessageDeflate}
    {headers : HttpHeaders} (henabled : env.permessageDeflateEnabled = true)
    (hnegotiate : env.negotiate = negotiatedResponse settings deflate)
    (hvalid : headers.validate = true) (hoffers : headers.get "sec-websocket-extensions" ≠ "") :
    (∃ params, Chooses
        (stringTokens (· = ',') (headers.get "sec-websocket-extensions").toList) params) ∧
      (∃ key, env.replyTo headers = .ok key (responseFragment settings)) ∨
    (¬ ∃ params, Chooses
        (stringTokens (· = ',') (headers.get "sec-websocket-extensions").toList) params) ∧
      env.replyTo headers = .error .badRequest := by
  unfold replyTo
  simp only [hvalid, Bool.not_true, Bool.false_eq_true, if_false, henabled, true_and, hoffers,
    ne_eq, not_false_eq_true, if_true, hnegotiate]
  by_cases hchooses : ∃ params, Chooses
      (stringTokens (· = ',') (headers.get "sec-websocket-extensions").toList) params
  · rw [negotiatedResponse_eq_some hchooses]
    exact .inl ⟨hchooses, _, rfl⟩
  · rw [negotiatedResponse_eq_none hchooses]
    exact .inr ⟨hchooses, rfl⟩

end Felicia
