import Calcar.Agent.Routing

/-!
# The addresses of the agent channel

The requests of `AgentChannelClient` in `agent_channel.dart`.  Each puts its ids into
the text of a path as they are; `_uri` parses the text behind the base address, and the
HTTP client sends the path and the query of what was parsed.

`Uri.parse` of the standard library takes the path up to the first `?` or `#`, turns
backslashes into slashes, escapes what a path may not contain, undoes escapes that are
not needed, and removes the segments `.` and `..`.
-/

namespace Calcar.Phone

open Agent Lib

/-! ## `Uri.parse` -/

namespace Uri

/-- Letters, digits and four marks: no escape of one of these is needed. -/
def isUnreserved (c : Char) : Bool :=
  c.isAlphanum || c == '-' || c == '.' || c == '_' || c == '~'

/-- What stands in a path unescaped. -/
def isPathChar (c : Char) : Bool :=
  isUnreserved c || "!$&'()*+,;=:@/".toList.contains c

/-- What stands in a query unescaped. -/
def isQueryChar (c : Char) : Bool := isPathChar c || c == '?'

/-- The digit of a number below sixteen. -/
def hexDigit (n : Nat) : Char := Char.ofNat (if n < 10 then 48 + n else 55 + n)

def hexValue (c : Char) : Option Nat :=
  if '0' ≤ c ∧ c ≤ '9' then some (c.toNat - 48)
  else if 'a' ≤ c ∧ c ≤ 'f' then some (c.toNat - 87)
  else if 'A' ≤ c ∧ c ≤ 'F' then some (c.toNat - 55)
  else none

/-- A byte as an escape. -/
def escapeByte (b : UInt8) : List Char := ['%', hexDigit (b.toNat / 16), hexDigit (b.toNat % 16)]

/-- What stands at one place of a text: an escape, or any other character. -/
inductive Token where
  | escape (b : UInt8)
  | plain (c : Char)
  deriving DecidableEq, Repr

/-- The escapes of a text, and what stands between them. -/
def scan : List Char → List Token
  | [] => []
  | '%' :: hi :: lo :: rest =>
      match hexValue hi, hexValue lo with
      | some h, some l => .escape (UInt8.ofNat (16 * h + l)) :: scan rest
      | _, _ => .plain '%' :: scan (hi :: lo :: rest)
  | c :: rest => .plain c :: scan rest

/-- An escape that is not needed is undone, any other is written in capitals.  A
character that may not stay is escaped, byte by byte. -/
def Token.spell (keep : Char → Bool) (backslash : Bool) : Token → List Char
  | .escape b =>
      if b < 128 ∧ isUnreserved (Char.ofNat b.toNat) = true then [Char.ofNat b.toNat]
      else escapeByte b
  | .plain c =>
      if keep c = true then [c]
      else if c = '\\' ∧ backslash = true then ['/']
      else (String.utf8EncodeChar c).flatMap escapeByte

/-- `_normalize`, with the characters that may stay. -/
def normalize (keep : Char → Bool) (backslash : Bool) (text : List Char) : List Char :=
  (scan text).flatMap (Token.spell keep backslash)

/-- One turn of the loop of `_removeDotSegments`: the output so far, and whether a slash
is to be appended. -/
def dotSegment (acc : List (List Char) × Bool) (segment : List Char) : List (List Char) × Bool :=
  if segment = ['.', '.'] then
    (if acc.1 = [] then [] else if acc.1.dropLast = [] then [[]] else acc.1.dropLast, true)
  else if segment = ['.'] then (acc.1, true)
  else (acc.1 ++ [segment], false)

/-- `_removeDotSegments`. -/
def removeDotSegments (path : List Char) : List Char :=
  let acc := (segments isSlash path).foldl dotSegment ([], false)
  ['/'].intercalate (acc.1 ++ if acc.2 = true then [[]] else [])

/-- The path that `Uri.parse` makes of the text behind the authority. -/
def path (text : List Char) : List Char :=
  removeDotSegments
    (normalize isPathChar true (text.takeWhile fun c => c ≠ '?' ∧ c ≠ '#'))

/-- Its query, with the question mark. -/
def query (text : List Char) : List Char :=
  match text.dropWhile fun c => c ≠ '?' ∧ c ≠ '#' with
  | '?' :: rest => '?' :: normalize isQueryChar false (rest.takeWhile (· ≠ '#'))
  | _ => []

/-- The target of a request to the parsed address. -/
def target (text : String) : String :=
  String.ofList ((match path text.toList with
    | [] => ['/']
    | p => p) ++ query text.toList)

/-! ### Cutting and scanning -/

/-- What `Uri.parse` takes for a slash. -/
def isSep (c : Char) : Bool := c == '/' || c == '\\'

def Token.isSep : Token → Bool
  | .escape _ => false
  | .plain c => Uri.isSep c

theorem hexValue_notSep {c : Char} {n : Nat} (h : hexValue c = some n) : Uri.isSep c = false := by
  have hslash : hexValue '/' = none := by decide
  have hback : hexValue '\\' = none := by decide
  unfold Uri.isSep
  rw [Bool.or_eq_false_iff, beq_eq_false_iff_ne, beq_eq_false_iff_ne]
  refine ⟨?_, ?_⟩
  · rintro rfl
    cases hslash.symm.trans h
  · rintro rfl
    cases hback.symm.trans h

/-- What stands first is no escape, however the text behind it is cut. -/
theorem scan_plain {c : Char} {rest s : List Char}
    (h : scan (c :: rest) = .plain c :: scan rest) (hs : s <+: rest) :
    scan (c :: s) = .plain c :: scan s := by
  by_cases hc : c = '%'
  · subst hc
    match s, hs with
    | [], _ => rfl
    | [_], _ => rfl
    | hi :: lo :: more, hs =>
        obtain ⟨behind, rfl⟩ := hs
        simp only [List.cons_append, scan] at h ⊢
        split at h
        · cases h
        · rfl
  · rw [scan]
    exact fun _ _ _ h => absurd h hc

theorem scan_percent {hi lo : Char} {rest : List Char}
    (h : ∀ a b, hexValue hi = some a → hexValue lo = some b → False) :
    scan ('%' :: hi :: lo :: rest) = .plain '%' :: scan (hi :: lo :: rest) := by
  rw [scan]
  split
  · rename_i a b ha hb
    exact (h a b ha hb).elim
  · rfl

theorem segments_scan_plain {c : Char} {rest : List Char}
    (h : scan (c :: rest) = .plain c :: scan rest)
    (ih : segments Token.isSep (scan rest) = (segments isSep rest).map scan) :
    segments Token.isSep (scan (c :: rest)) = (segments isSep (c :: rest)).map scan := by
  rw [h]
  by_cases hsep : Uri.isSep c = true
  · have htoken : (Token.plain c).isSep = true := hsep
    rw [segments_sep hsep, segments_sep htoken, ih]
    rfl
  · have hsep' : Uri.isSep c = false := by simpa using hsep
    have htoken : (Token.plain c).isSep = false := hsep'
    obtain ⟨s, ss, hss⟩ := segments_cons isSep rest
    rw [segments_other hsep', segments_other htoken, ih, hss]
    simp [scan_plain h (segments_starts hss)]

/-- **Cutting and scanning commute**: no escape holds a slash. -/
theorem segments_scan (text : List Char) :
    segments Token.isSep (scan text) = (segments isSep text).map scan := by
  fun_induction scan text with
  | case1 => rfl
  | case2 hi lo rest h l hh hl ih =>
      have hplain : ∀ x ∈ ['%', hi, lo], isSep x = false := by
        have hpercent : isSep '%' = false := by decide
        simp [hpercent, hexValue_notSep hh, hexValue_notSep hl]
      have hescape : (Token.escape (UInt8.ofNat (16 * h + l))).isSep = false := rfl
      obtain ⟨s, ss, hss⟩ := segments_cons isSep rest
      have hcut := segments_append hplain rest
      rw [hss] at hcut
      rw [segments_other hescape, ih, hss]
      show _ = (segments isSep (['%', hi, lo] ++ rest)).map scan
      rw [hcut]
      simp [scan, hh, hl]
  | case3 hi lo rest hnone ih =>
      have h := segments_scan_plain (scan_percent hnone) ih
      rwa [scan_percent hnone] at h
  | case4 c rest hc ih =>
      have hplain : scan (c :: rest) = .plain c :: scan rest := by
        rw [scan]
        exact hc
      have h := segments_scan_plain hplain ih
      rwa [hplain] at h

end Uri

/-! ## Requests -/

/-- The values the headers of `dart:io` take: ASCII, and no control character but the tab
and DEL. -/
def isHeaderValue (value : String) : Bool :=
  value.toList.all fun c => c == '\t' || (decide (32 ≤ c.toNat) && decide (c.toNat < 128))

/-- The requests of `AgentChannelClient`, with the ids that go into the path. -/
inductive AgentCall where
  | fetchComputer (computerId : String)
  | fetchSysinfo (computerId : String)
  | fetchWorkflow (computerId workflowId : String)
  | postApprovalResolve (workflowId : String)
  | postInput (workflowId : String)

namespace AgentCall

def method : AgentCall → Method
  | .fetchComputer _ | .fetchSysinfo _ | .fetchWorkflow _ _ => .get
  | .postApprovalResolve _ | .postInput _ => .post

/-- The argument of `_uri`. -/
def path : AgentCall → String
  | .fetchComputer computerId => "/v1/agent/computers/" ++ computerId
  | .fetchSysinfo computerId => "/v1/agent/computers/" ++ computerId ++ "/sysinfo"
  | .fetchWorkflow computerId workflowId =>
      "/v1/agent/computers/" ++ computerId ++ "/workflows/" ++ workflowId
  | .postApprovalResolve workflowId => "/v1/agent/workflows/" ++ workflowId ++ "/approvals"
  | .postInput workflowId => "/v1/agent/workflows/" ++ workflowId ++ "/inputs"

/-- What the agent serves when the request reaches it. -/
def served (call : AgentCall) : Route := route call.method (Uri.target call.path)

end AgentCall

end Calcar.Phone
