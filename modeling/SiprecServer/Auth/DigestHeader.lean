import SiprecServer.Auth.SipAuth

/-!
# Reading an Authorization header

A client lists its parameters in any order, as tokens and quoted strings of RFC 2617.  The server
splits the header at commas, so a comma inside a quoted string cuts the value.
-/

namespace SiprecServer.Auth

open Lib Lib.Text List

variable (creds : DigestCredentials)

/-- The parameters that the server reads. -/
def DigestCredentials.params : List (String × String) :=
  [("username", creds.username), ("realm", creds.realm), ("nonce", creds.nonce),
    ("uri", creds.uri), ("response", creds.response), ("algorithm", creds.algorithm),
    ("opaque", creds.opaqueText), ("qop", creds.qop), ("nc", creds.nc), ("cnonce", creds.cnonce)]

/-- The parameters that are written without quotes. -/
def tokenKeys : List String := ["algorithm", "qop", "nc"]

def renderValue (param : String × String) : List Char :=
  if param.1 ∈ tokenKeys then param.2.toList else '"' :: param.2.toList ++ ['"']

def renderParam (param : String × String) : List Char :=
  param.1.toList ++ '=' :: renderValue param

/-- Parameters that the server supports, in some order; `opaque` may be left out. -/
structure Authorization (realm requestURI : String) where
  creds : DigestCredentials
  ownRealm : creds.realm = realm
  ownURI : creds.uri = requestURI
  md5 : creds.algorithm = "MD5"
  auth : creds.qop = "auth"
  count : creds.nc.toList.length = 8 ∧ ∀ c ∈ creds.nc.toList, c ∈ "0123456789abcdef".toList
  plain : ∀ param ∈ creds.params, '"' ∉ param.2.toList ∧ '\\' ∉ param.2.toList
  order : List (String × String)
  listed : order.Perm creds.params ∨
    creds.opaqueText = "" ∧ order.Perm (creds.params.erase ("opaque", ""))

def Authorization.header {realm requestURI : String} (a : Authorization realm requestURI) :
    String :=
  String.ofList ("Digest ".toList ++ [',', ' '].intercalate (a.order.map renderParam))

theorem set_known (value : String) : creds.set "username" value = { creds with username := value } ∧
      creds.set "realm" value = { creds with realm := value } ∧
      creds.set "nonce" value = { creds with nonce := value } ∧
      creds.set "uri" value = { creds with uri := value } ∧
      creds.set "response" value = { creds with response := value } ∧
      creds.set "algorithm" value = { creds with algorithm := value } ∧
      creds.set "opaque" value = { creds with opaqueText := value } ∧
      creds.set "qop" value = { creds with qop := value } ∧
      creds.set "nc" value = { creds with nc := value } ∧
      creds.set "cnonce" value = { creds with cnonce := value } := by
  simp [DigestCredentials.set]

theorem params_set_comm :
    ∀ p ∈ creds.params, ∀ q ∈ creds.params, ∀ z : DigestCredentials,
      (z.set p.1 p.2).set q.1 q.2 = (z.set q.1 q.2).set p.1 p.2 := by
  simp [DigestCredentials.params, set_known]

theorem params_fold : creds.params.foldl (fun z p => z.set p.1 p.2) {} = creds := by
  simp [DigestCredentials.params, set_known]

/-! ## Reading a parameter -/

variable {p : Char → Bool} {l : List Char}

theorem dropWhile_eq_self_of_head (kept : ∀ c ∈ l.head?, p c = false) : l.dropWhile p = l := by
  cases l with
  | nil => rfl
  | cons c rest => rw [dropWhile_cons_of_neg (by simp [kept c rfl])]

theorem trimSpace_ofList (front : ∀ c ∈ l.head?, isSpace c = false)
    (back : ∀ c ∈ l.getLast?, isSpace c = false) :
    trimSpace (String.ofList l) = String.ofList l := by
  rw [trimSpace, String.toList_ofList, dropWhile_eq_self_of_head front,
    dropWhile_eq_self_of_head (by simpa using back), reverse_reverse]

theorem trimSpace_blank (l : List Char) :
    trimSpace (String.ofList (' ' :: l)) = trimSpace (String.ofList l) := by
  rw [trimSpace, trimSpace, String.toList_ofList, String.toList_ofList,
    dropWhile_cons_of_pos (by decide)]

theorem dropQuotes (plain : '"' ∉ l) : l.dropWhile (· = '"') = l :=
  dropWhile_eq_self_of_head fun _ first =>
    decide_eq_false fun same => plain (same ▸ mem_of_head? first)

theorem trimQuotes_plain (plain : '"' ∉ l) : trimQuotes (String.ofList l) = String.ofList l := by
  rw [trimQuotes, String.toList_ofList, dropQuotes plain,
    dropQuotes (mt mem_reverse.mp plain), reverse_reverse]

theorem trimQuotes_quoted (plain : '"' ∉ l) :
    trimQuotes (String.ofList ('"' :: l ++ ['"'])) = String.ofList l := by
  rw [trimQuotes, String.toList_ofList, cons_append, dropWhile_cons_of_pos (by simp),
    dropWhile_append, dropQuotes plain]
  cases l with
  | nil => rfl
  | cons c rest =>
    rw [if_neg (by simp), reverse_append, reverse_singleton, singleton_append,
      dropWhile_cons_of_pos (by simp), dropQuotes (mt mem_reverse.mp plain),
      reverse_reverse]

theorem key_solid :
    ∀ param ∈ creds.params, param.1.toList ≠ [] ∧
      ∀ c ∈ param.1.toList, isSpace c = false ∧ c ≠ '=' ∧ c ≠ ',' := by
  simp [DigestCredentials.params]
  decide

open DigestCredentials

section

variable {realm requestURI : String} (a : Authorization realm requestURI)

theorem Authorization.token_solid : ∀ param ∈ a.creds.params, param.1 ∈ tokenKeys →
    ∀ c ∈ param.2.toList, isSpace c = false := by
  have digits : ∀ c ∈ "0123456789abcdef".toList, isSpace c = false := by
    simp
    decide
  have count : ∀ c ∈ a.creds.nc.toList, isSpace c = false := fun c mem =>
    digits c (a.count.2 c mem)
  have words : (∀ c ∈ "MD5".toList, isSpace c = false) ∧
      ∀ c ∈ "auth".toList, isSpace c = false := by
    simp
    decide
  simpa [DigestCredentials.params, tokenKeys, a.md5, a.auth, words] using count

theorem Authorization.renderValue_trimmed : ∀ param ∈ a.creds.params,
    (∀ c ∈ (renderValue param).head?, isSpace c = false) ∧
      ∀ c ∈ (renderValue param).getLast?, isSpace c = false := by
  intro param mem
  have quote : isSpace '"' = false := by decide
  unfold renderValue
  split
  case isTrue token =>
    have solid := a.token_solid param mem token
    exact ⟨fun c first => solid c (mem_of_head? first),
      fun c last => solid c (mem_of_getLast? last)⟩
  case isFalse =>
    refine ⟨by simp [quote], fun c last => ?_⟩
    rw [getLast?_concat] at last
    cases last
    exact quote

theorem Authorization.trimSpace_render : ∀ param ∈ a.creds.params,
    trimSpace (String.ofList (renderParam param)) = String.ofList (renderParam param) := by
  intro param mem
  obtain ⟨nonempty, solid⟩ := key_solid a.creds param mem
  apply trimSpace_ofList
  · intro c first
    rw [renderParam, head?_append_of_ne_nil _ nonempty] at first
    exact (solid c (mem_of_head? first)).1
  · intro c last
    rw [renderParam, getLast?_append_of_ne_nil _ (cons_ne_nil _ _), getLast?_cons] at last
    cases shown : (renderValue param).getLast? with
    | none =>
      rw [shown] at last
      cases last
      decide
    | some d =>
      rw [shown] at last
      cases last
      exact (a.renderValue_trimmed param mem).2 _ shown

theorem Authorization.addPair_render {pair : String} :
    ∀ param ∈ a.creds.params, trimSpace pair = String.ofList (renderParam param) →
      creds.addPair pair = creds.set param.1 param.2 := by
  intro param mem trimmed
  obtain ⟨-, solid⟩ := key_solid a.creds param mem
  obtain ⟨front, back⟩ := a.renderValue_trimmed param mem
  have plain := (a.plain param mem).1
  have unquoted : trimQuotes (String.ofList (renderValue param)) = param.2 := by
    unfold renderValue
    split
    · rw [trimQuotes_plain plain, String.ofList_toList]
    · rw [trimQuotes_quoted plain, String.ofList_toList]
  have keyTrimmed : trimSpace (String.ofList param.1.toList) = String.ofList param.1.toList :=
    trimSpace_ofList (fun c first => (solid c (mem_of_head? first)).1)
      fun c last => (solid c (mem_of_getLast? last)).1
  rw [addPair, trimmed, renderParam, splitPair, String.toList_ofList,
    span_to fun equals => (solid _ equals).2.1 rfl]
  dsimp only
  rw [keyTrimmed, trimSpace_ofList front back, unquoted, String.ofList_toList]

/-! ## Reading the header -/

def DigestCredentials.CommaFree : Prop :=
  ∀ param ∈ creds.params, ',' ∉ param.2.toList

theorem splitOn_commas {text : List Char} {texts : List (List Char)}
    (free : ∀ part ∈ text :: texts, ',' ∉ part) :
    ([',', ' '].intercalate (text :: texts)).splitOn ',' = text :: texts.map (' ' :: ·) := by
  have joined : [',', ' '].intercalate (text :: texts) =
      [','].intercalate (text :: texts.map (' ' :: ·)) := by
    clear free
    induction texts generalizing text with
    | nil => simp
    | cons next rest ih =>
      rw [intercalate_cons_cons, map_cons, intercalate_cons_cons, ← ih]
      cases rest <;> simp
  rw [joined, splitOn_intercalate ',' _ (by simp)]
  simpa using free

theorem Authorization.renderParam_free (free : a.creds.CommaFree) :
    ∀ param ∈ a.creds.params, ',' ∉ renderParam param := by
  intro param mem comma
  rw [renderParam, mem_append, mem_cons] at comma
  obtain inKey | isEquals | inValue := comma
  · exact ((key_solid a.creds param mem).2 _ inKey).2.2 rfl
  · exact absurd isEquals (by decide)
  · have own := free param mem
    unfold renderValue at inValue
    split at inValue <;> simp_all

theorem Authorization.order_fold : (∀ param ∈ a.order, param ∈ a.creds.params) ∧
    a.order.foldl (fun creds param => creds.set param.1 param.2) {} = a.creds := by
  have commutes := params_set_comm a.creds
  obtain all | ⟨absent, others⟩ := a.listed
  · have known (param : String × String) (mem : param ∈ a.order) := all.mem_iff.mp mem
    rw [all.foldl_eq' fun p inP q inQ => commutes p (known p inP) q (known q inQ)]
    exact ⟨known, params_fold a.creds⟩
  · have known (param : String × String) (mem : param ∈ a.order) :=
      mem_of_mem_erase (others.mem_iff.mp mem)
    rw [others.foldl_eq' fun p inP q inQ => commutes p (known p inP) q (known q inQ)]
    have creds := params_fold a.creds
    exact ⟨known, by simp_all [params, set_known]⟩

theorem Authorization.pairs_fold (free : a.creds.CommaFree) :
    (([',', ' '].intercalate (a.order.map renderParam)).splitOn ',').foldl
      (fun creds pair => creds.addPair (String.ofList pair)) {} = a.creds := by
  obtain ⟨known, sets⟩ := a.order_fold
  cases listed : a.order with
  | nil =>
    rw [listed] at sets
    rw [← sets]
    rfl
  | cons first rest =>
    rw [listed] at known sets
    have inFirst := known first (.head _)
    rw [map_cons, splitOn_commas, map_map, ← sets, foldl_cons, foldl_cons,
      foldl_map, a.addPair_render _ first inFirst (a.trimSpace_render first inFirst)]
    · refine foldl_ext _ _ _ fun creds param mem => ?_
      have inRest := known param (.tail _ mem)
      exact a.addPair_render _ param inRest
        ((trimSpace_blank _).trans (a.trimSpace_render param inRest))
    · rw [← map_cons]
      intro part mem
      obtain ⟨param, inOrder, rfl⟩ := mem_map.mp mem
      exact a.renderParam_free free param (known param inOrder)

end

/-! ## What the header cannot carry -/

theorem not_of_mem_splitOnP {text part : List Char} (split : part ∈ text.splitOnP p) :
    ∀ c ∈ part, p c = false := by
  induction text generalizing part with
  | nil => simp_all
  | cons d rest ih =>
    obtain ⟨first, others, parts⟩ := exists_cons_of_ne_nil (splitOnP_ne_nil p rest)
    rw [splitOnP_cons_eq_if_modifyHead, parts] at split
    rw [parts] at ih
    by_cases separates : p d = true
    · rw [if_pos separates, mem_cons] at split
      obtain rfl | later := split
      · simp
      · exact ih later
    · rw [if_neg separates, modifyHead_cons, mem_cons] at split
      obtain rfl | later := split
      · simpa [separates] using ih (.head _)
      · exact ih (.tail _ later)

theorem mem_of_mem_trimmed {c : Char} (kept : c ∈ ((l.dropWhile p).reverse.dropWhile p).reverse) :
    c ∈ l := by
  have back := (dropWhile_sublist p).subset (mem_reverse.mp kept)
  exact (dropWhile_sublist p).subset (mem_reverse.mp back)

theorem addPair_commaFree {creds : DigestCredentials} {pair : List Char}
    (free : creds.CommaFree) (solid : ',' ∉ pair) :
    (creds.addPair (String.ofList pair)).CommaFree := by
  unfold addPair
  split
  · exact free
  case _ key value split =>
    have valueFree : ',' ∉ (trimQuotes (trimSpace value)).toList := by
      rw [trimQuotes, trimSpace, String.toList_ofList, String.toList_ofList]
      intro comma
      have inValue := mem_of_mem_trimmed (mem_of_mem_trimmed comma)
      unfold splitPair at split
      split at split
      · cases split
      case _ back parts =>
        cases split
        rw [String.toList_ofList] at inValue
        have inPair := mem_of_span parts _ inValue
        rw [trimSpace, String.toList_ofList, String.toList_ofList] at inPair
        exact solid (mem_of_mem_trimmed inPair)
    generalize trimQuotes (trimSpace value) = value at valueFree
    unfold DigestCredentials.set DigestCredentials.CommaFree
    split <;> simp_all [CommaFree, params]

theorem fold_commaFree (pairs : List (List Char)) (solid : ∀ pair ∈ pairs, ',' ∉ pair)
    {creds : DigestCredentials} (free : creds.CommaFree) :
    (pairs.foldl (fun creds pair => creds.addPair (String.ofList pair)) creds).CommaFree := by
  induction pairs generalizing creds with
  | nil => exact free
  | cons pair pairs ih =>
    rw [foldl_cons]
    exact ih (fun other mem => solid other (.tail _ mem))
      (addPair_commaFree free (solid pair (.head _)))

/-! ## Nonce counts -/

theorem hexDigit_lower {c : Char} (digit : c ∈ "0123456789abcdef".toList) :
    c.utf8Size = 1 ∧ ∃ d, hexDigit c = some d ∧ d < 16 ∧ (d < 8 ↔ c ∈ "01234567".toList) := by
  have every : ("0123456789abcdef".toList.all fun c => c.utf8Size = 1 && (hexDigit c).any fun d =>
      decide (d < 16 ∧ (d < 8 ↔ c ∈ "01234567".toList))) = true := by
    decide
  have found := all_eq_true.mp every c digit
  simpa only [Bool.and_eq_true, decide_eq_true_eq, Option.any_eq_true] using found

theorem hexDigits_lower {text : List Char}
    (digits : ∀ c ∈ text, c ∈ "0123456789abcdef".toList) :
    (String.ofList text).utf8ByteSize = text.length ∧
      ∃ values, text.mapM hexDigit = some values ∧ values.length = text.length ∧
        ∀ value ∈ values, value < 16 := by
  induction text with
  | nil => exact ⟨rfl, [], rfl, rfl, by simp⟩
  | cons c text ih =>
    obtain ⟨here, later⟩ := forall_mem_cons.mp digits
    obtain ⟨small, value, isValue, below, -⟩ := hexDigit_lower here
    obtain ⟨size, values, read, length, belows⟩ := ih later
    refine ⟨?_, value :: values, by simp [isValue, read], congrArg (· + 1) length, ?_⟩
    · rw [String.ofList_cons, String.utf8ByteSize_append, String.utf8ByteSize_singleton, small,
        size, length_cons, Nat.add_comm]
    · exact forall_mem_cons.mpr ⟨below, belows⟩

theorem foldl_hex_bounds {values : List Nat} (below : ∀ value ∈ values, value < 16) (first : Nat) :
    first * 16 ^ values.length ≤ values.foldl (fun value digit => value * 16 + digit) first ∧
      values.foldl (fun value digit => value * 16 + digit) first <
        (first + 1) * 16 ^ values.length := by
  induction values generalizing first with
  | nil => simp
  | cons value values ih =>
    obtain ⟨here, later⟩ := forall_mem_cons.mp below
    obtain ⟨least, most⟩ := ih later (first * 16 + value)
    rw [foldl_cons, length_cons, Nat.pow_succ', ← Nat.mul_assoc, ← Nat.mul_assoc]
    refine ⟨Nat.le_trans (Nat.mul_le_mul_right _ ?_) least,
      Nat.lt_of_lt_of_le most (Nat.mul_le_mul_right _ ?_)⟩
    · omega
    · omega

/-- Eight digits are taken as a nonce count if the first of them is at most seven. -/
theorem parseNonceCount_ok_iff {nc : String} (count : nc.toList.length = 8 ∧
      ∀ c ∈ nc.toList, c ∈ "0123456789abcdef".toList) :
    (∃ value, parseNonceCount nc = .ok value) ↔
      ∀ c ∈ nc.toList.head?, c ∈ "01234567".toList := by
  obtain ⟨long, digits⟩ := count
  obtain ⟨size, values, read, length, below⟩ := hexDigits_lower digits
  rw [String.ofList_toList, long] at size
  obtain ⟨c, rest, isNc⟩ := exists_cons_of_length_eq_add_one long
  rw [isNc] at long digits read length
  obtain ⟨-, value, isValue, -, low⟩ := hexDigit_lower (digits c (.head _))
  obtain ⟨others, -, rfl⟩ : ∃ others, rest.mapM hexDigit = some others ∧
      value :: others = values := by
    simpa [mapM_cons, isValue, Option.bind_eq_some_iff] using read
  have seven : others.length = 7 := by simpa [long] using length
  obtain ⟨least, most⟩ := foldl_hex_bounds (forall_mem_cons.mp below).2 value
  rw [seven] at least most
  rw [parseNonceCount, if_neg (by simp [size]), isNc, read]
  simp only [foldl_cons, Nat.zero_mul, Nat.zero_add, head?_cons, Option.mem_some, forall_eq', ← low]
  split
  case isTrue large =>
    refine iff_of_false (by simp) ?_
    omega
  case isFalse small =>
    refine iff_of_true ⟨_, rfl⟩ ?_
    omega

/-- The response of a client, as RFC 2617 computes it for `qop` "auth". -/
def requestDigest (md5Hex : String → String) (password method : String)
    (creds : DigestCredentials) : String :=
  let a1 := creds.username ++ ":" ++ creds.realm ++ ":" ++ password
  let a2 := method ++ ":" ++ creds.uri
  md5Hex (md5Hex a1 ++ ":" ++ (creds.nonce ++ ":" ++ creds.nc ++ ":" ++ creds.cnonce ++ ":" ++
    creds.qop ++ ":" ++ md5Hex a2))

/-- A header is read as it was written, and a correct response accepted, exactly if no value has
a comma, the values that the server needs are there and the nonce count is less than `80000000`. -/
theorem parseDigestAuth_header_iff {realm requestURI : String}
    (a : Authorization realm requestURI) :
    parseDigestAuth realm a.header requestURI = .ok a.creds ∧
        (∀ md5Hex password method,
          a.creds.response = requestDigest md5Hex password method a.creds →
            a.creds.response = calculateResponse md5Hex password method requestURI a.creds) ↔
      a.creds.CommaFree ∧ a.creds.username ≠ "" ∧ realm ≠ "" ∧ a.creds.nonce ≠ "" ∧
        requestURI ≠ "" ∧ a.creds.response ≠ "" ∧ a.creds.cnonce ≠ "" ∧
        ∀ c ∈ a.creds.nc.toList.head?, c ∈ "01234567".toList := by
  have accepted (md5Hex : String → String) (password method : String) :
      requestDigest md5Hex password method a.creds =
        calculateResponse md5Hex password method requestURI a.creds := by
    simp [requestDigest, calculateResponse, a.auth, a.ownURI, String.append_assoc]
  have started : a.header.toList.dropPrefix? "Digest ".toList =
      some ([',', ' '].intercalate (a.order.map renderParam)) := by
    have text : a.header.toList = "Digest ".toList ++ _ := String.toList_ofList
    rw [text, dropPrefix?_append]
  rw [and_iff_left fun md5Hex password method same => same.trans (accepted _ _ _),
    parseDigestAuth, started, ← parseNonceCount_ok_iff a.count]
  dsimp only
  constructor
  · intro parsed
    have empty : ({} : DigestCredentials).CommaFree := by
      simp [CommaFree, params]
    have free := fold_commaFree
      (([',', ' '].intercalate (a.order.map renderParam)).splitOn ',')
      (fun pair member comma => by simpa using not_of_mem_splitOnP member _ comma) empty
    generalize List.foldl _ _ _ = creds at free parsed
    split_ifs at parsed with missing otherRealm otherURI otherAlgorithm otherQop noCnonce
    cases read : parseNonceCount creds.nc with
    | error text =>
      rw [read] at parsed
      cases parsed
    | ok count =>
      rw [read] at parsed
      have same : creds = a.creds := Except.ok.inj parsed
      simp only [same, a.ownRealm, a.ownURI, not_or] at free missing noCnonce read
      obtain ⟨username, realmGiven, nonce, uri, response⟩ := missing
      exact ⟨free, username, realmGiven, nonce, uri, response, noCnonce, count, read⟩
  · rintro ⟨free, username, realmGiven, nonce, uri, response, cnonce, count, parsed⟩
    rw [a.pairs_fold free]
    have md5 : equalFoldMD5 "MD5" = true := by decide
    simp [a.ownRealm, a.ownURI, a.md5, md5, a.auth, parsed, Except.map, username, realmGiven,
      nonce, uri, response, cnonce]

def commaUser : Authorization "pbx" "sip:srs" where
  creds :=
    { username := "smith, alice", realm := "pbx", nonce := "n", uri := "sip:srs", response := "r"
      algorithm := "MD5", qop := "auth", nc := "00000001", cnonce := "c" }
  ownRealm := rfl
  ownURI := rfl
  md5 := rfl
  auth := rfl
  count := by simp
  plain := by decide
  order := _
  listed := .inl (.refl _)

theorem commaUser_cut :
    (parseDigestAuth "pbx" commaUser.header "sip:srs").map (·.username) = .ok "smith" := by
  decide +kernel

end SiprecServer.Auth
