import SpiderChrome.Library.Slice
import SpiderChrome.Network.Url

/-!
# The URL helpers by their bytes

The helpers of `handler/network_utils.rs` as they run: they search in the bytes of a text and cut it at the positions that they find. Every cut is checked here. Where no helper stops at one, it gives what it gives on characters.
-/

namespace SpiderChrome

namespace UrlHelpers

open Slice Unicode NetworkUtils

/-! ### The host -/

def hostStart (bytes : List UInt8) : Option Nat :=
  let protocolRelative := if (utf8 "//".toList).isPrefixOf bytes then some 2 else none
  match memchr (byte ':') bytes with
  | some pos =>
    if bytes[pos + 1]? = some (byte '/') ∧ bytes[pos + 2]? = some (byte '/') then some (pos + 3) else protocolRelative
  | none => protocolRelative

def dropUserinfo (authority : List Char) : Except Panic (List Char) :=
  match memrchr (byte '@') (utf8 authority) with
  | some pos => sliceFrom authority (pos + 1)
  | none => .ok authority

/-- The host of an authority, with what follows the authority in the URL. -/
def hostOf (url authority : List Char) (restStart : Nat) : Except Panic (Option (List Char × List Char)) :=
  let ab := utf8 authority
  if ab.head? = some (byte '[') then
    match memchr (byte ']') ab with
    | none => .ok none
    | some close => do
      let host ← slice authority 1 close
      let rest ← sliceFrom url restStart
      .ok (some (host, rest))
  else do
    let hostEnd := (memchr (byte ':') ab).getD ab.length
    let host ← sliceTo authority hostEnd
    if host.isEmpty then .ok none
    else do
      let rest ← sliceFrom url restStart
      .ok (some (host, rest))

def hostAndRest (url : List Char) : Except Panic (Option (List Char × List Char)) :=
  let url := stripSpecialSchemes url
  match hostStart (utf8 url) with
  | none => .ok none
  | some hostStart => do
    let bytes ← bytesFrom (utf8 url) hostStart
    let restStart :=
      ((memchr3 (byte '/') (byte '?') (byte '#') bytes).map fun i => i + hostStart).getD (utf8 url).length
    let authority ← slice url hostStart restStart
    if authority.isEmpty then .ok none
    else do
      let authority ← dropUserinfo authority
      hostOf url authority restStart

/-! ### The base domain -/

/-- The base without the labels to the left of it. -/
def shortBase (h : List Char) (lastDot prevDot : Nat) : Except Panic (List Char) := do
  let tld ← sliceFrom h (lastDot + 1)
  let sld ← slice h (prevDot + 1) lastDot
  let base ← sliceFrom h (prevDot + 1)
  if (utf8 tld).length = 2 ∧ isCommonCcSld sld then do
    let front ← bytesTo (utf8 h) prevDot
    match memrchr (byte '.') front with
    | some prev2Dot => sliceFrom h (prev2Dot + 1)
    | none => .ok base
  else .ok base

/-- The base with the label to the left of it, if that is the name of a tenant. -/
def tenantBase (h base : List Char) : Except Panic (List Char) :=
  if (utf8 h).length > (utf8 base).length + 1 then do
    let baseStart ← sub (utf8 h).length (utf8 base).length
    let boundary ← sub baseStart 1
    if (utf8 h)[boundary]? = some (byte '.') then do
      let leftPart ← sliceTo h boundary
      match memrchr (byte '.') (utf8 leftPart) with
      | some p => do
        let lbl ← sliceFrom leftPart (p + 1)
        if !lbl.isEmpty && !isCommonSubdomainLabel lbl then sliceFrom h (p + 1) else .ok base
      | none => if !leftPart.isEmpty && !isCommonSubdomainLabel leftPart then sliceFrom h 0 else .ok base
    else .ok base
  else .ok base

def baseDomainFromHost (host : List Char) : Except Panic (List Char) :=
  let h := trimEndMatches '.' host
  let h := (stripPrefix? h "www.".toList).getD h
  let h := (stripPrefix? h "m.".toList).getD h
  match memrchr (byte '.') (utf8 h) with
  | none => .ok h
  | some lastDot => do
    let front ← bytesTo (utf8 h) lastDot
    match memrchr (byte '.') front with
    | none => .ok h
    | some prevDot => do
      let base ← shortBase h lastDot prevDot
      tenantBase h base

def baseDomainFromAny (s : List Char) : Except Panic (List Char) := do
  let found ← hostAndRest s
  match found with
  | some (h, _) => baseDomainFromHost h
  | none => baseDomainFromHost s

/-! ### Labels -/

def firstLabel (host : List Char) : Except Panic (List Char) :=
  let h := trimEndMatches '.' host
  match memchr (byte '.') (utf8 h) with
  | some i => sliceTo h i
  | none => .ok h

def toAsciiLowercase (b : UInt8) : UInt8 := if 65 ≤ b ∧ b ≤ 90 then b + 32 else b

def eqIgnoreAsciiCase (a b : List UInt8) : Bool := a.map toAsciiLowercase = b.map toAsciiLowercase

def endsWithIgnoreAsciiCase (hay suf : List Char) : Except Panic Bool :=
  if (utf8 suf).length > (utf8 hay).length then .ok false
  else do
    let start ← sub (utf8 hay).length (utf8 suf).length
    let tail ← sliceFrom hay start
    .ok (eqIgnoreAsciiCase (utf8 tail) (utf8 suf))

/-- The position after dots. -/
def skipDots (hb : List UInt8) (start : Nat) : Nat :=
  if h : start < hb.length then if hb[start] = byte '.' then skipDots hb (start + 1) else start else start
termination_by hb.length - start

theorem le_skipDots (hb : List UInt8) (start : Nat) : start ≤ skipDots hb start := by
  fun_induction skipDots hb start with
  | case1 start hlt hdot ih => omega
  | case2 start hlt hdot => exact Nat.le_refl _
  | case3 start hlt => exact Nat.le_refl _

/-- Whether the label stands between two positions. -/
def labelAt (hb lb : List UInt8) (start stop : Nat) : Except Panic Bool := do
  let length ← sub stop start
  if length = lb.length then do
    let label ← bytesBetween hb start stop
    .ok (eqIgnoreAsciiCase label lb)
  else .ok false

def nextDot (hb : List UInt8) (start : Nat) : Nat :=
  ((memchr (byte '.') (hb.drop start)).map fun i => i + start).getD hb.length

theorem le_nextDot (hb : List UInt8) {start : Nat} (h : start ≤ hb.length) : start ≤ nextDot hb start := by
  rw [nextDot]
  cases memchr (byte '.') (hb.drop start) with
  | none => exact h
  | some i => exact Nat.le_add_left start i

/-- The loop over the labels from a position on. -/
def containsLabel (hb lb : List UInt8) (start : Nat) : Except Panic Bool :=
  if _ : start < hb.length then
    match labelAt hb lb start (nextDot hb start) with
    | .error panic => .error panic
    | .ok true => .ok true
    | .ok false => containsLabel hb lb (skipDots hb (nextDot hb start + 1))
  else .ok false
termination_by hb.length - start
decreasing_by
  have hskip := le_skipDots hb (nextDot hb start + 1)
  have hnext := @le_nextDot hb start (by omega)
  omega

def hostContainsLabelIcase (host label : List Char) : Except Panic Bool :=
  let host := trimEndMatches '.' host
  let label := trimEndMatches '.' (label.dropWhile (· = '.'))
  if host.isEmpty || label.isEmpty then .ok false
  else containsLabel (utf8 host) (utf8 label) (skipDots (utf8 host) 0)

def hostIsSubdomainOf (host base : List Char) : Except Panic Bool :=
  let host := trimEndMatches '.' host
  let base := trimEndMatches '.' base
  if base.isEmpty then .ok false
  else if eqIgnoreAsciiCase (utf8 host) (utf8 base) then .ok true
  else if (utf8 host).length ≤ (utf8 base).length then .ok false
  else do
    let difference ← sub (utf8 host).length (utf8 base).length
    let dotPos ← sub difference 1
    if (utf8 host)[dotPos]? = some (byte '.') then endsWithIgnoreAsciiCase host base else .ok false

def relForIgnoreScript (mainHostOrBase url : List Char) : Except Panic (List Char) :=
  if url.head? = some '/' then .ok url
  else do
    let base ← baseDomainFromHost (trimEndMatches '.' mainHostOrBase)
    let base := trimEndMatches '.' base
    if base.isEmpty then .ok url
    else do
      let brand ← firstLabel base
      let found ← hostAndRest url
      match found with
      | some (host, rest) => do
        let subdomain ← hostIsSubdomainOf host base
        let same ← if subdomain then .ok true else hostContainsLabelIcase host brand
        if same then .ok (if rest.head? = some '/' then rest else ['/']) else .ok url
      | none => .ok url

/-! ### Steps that succeed -/

theorem ok_bind {α β : Type} (a : α) (f : α → Except Panic β) : (Except.ok a >>= f) = f a := rfl

theorem returns_ok {α : Type} (a : α) : Returns (.ok a : Except Panic α) := ⟨a, rfl⟩

theorem sub_of_le {a b : Nat} (h : b ≤ a) : sub a b = .ok (a - b) := if_pos h

theorem utf8Len_eq (s : List Char) : utf8Len s = (utf8 s).length := by
  induction s with
  | nil => rfl
  | cons c s ih =>
    rw [length_utf8_cons, ← ih]
    rfl

/-! ### Where a character stands -/

variable {c : Char} {s front back : List Char}

theorem splitLast_append_cons (front : List Char) (h : c ∉ back) :
    splitLast c (front ++ c :: back) = some (front, back) := by
  have hmem : c ∈ front ++ c :: back := List.mem_append_right _ List.mem_cons_self
  have hrest : ∀ d ∈ back.reverse, decide (d ≠ c) = true := by
    intro d hd
    apply decide_eq_true
    rintro rfl
    exact h (List.mem_reverse.1 hd)
  have hstop : decide (c ≠ c) = false := decide_eq_false fun hne => hne rfl
  rw [splitLast, if_pos hmem, List.reverse_append, List.reverse_cons, List.append_assoc, List.singleton_append,
    List.dropWhile_append_of_pos hrest, List.takeWhile_append_of_pos hrest, List.dropWhile_cons, List.takeWhile_cons,
    hstop, if_neg Bool.false_ne_true, if_neg Bool.false_ne_true, List.drop_one, List.tail_cons, List.append_nil,
    List.reverse_reverse, List.reverse_reverse]

/-- A text has no such character, or there is a last one. -/
theorem last_cases (c : Char) (s : List Char) :
    c ∉ s ∨ ∃ front back, s = front ++ c :: back ∧ c ∉ back := by
  by_cases h : c ∈ s
  · obtain ⟨as, bs, heq, hnot⟩ := List.eq_append_cons_of_mem (List.mem_reverse.2 h)
    refine .inr ⟨bs.reverse, as.reverse, ?_, fun hmem => hnot (List.mem_reverse.1 hmem)⟩
    rw [← List.reverse_reverse s, heq, List.reverse_append, List.reverse_cons, List.append_assoc,
      List.singleton_append]
  · exact .inl h

theorem splitLast_eq_none (h : c ∉ s) : splitLast c s = none := if_neg h

theorem takeWhile_append_cons (h : c ∉ front) (back : List Char) :
    (front ++ c :: back).takeWhile (fun d => decide (d ≠ c)) = front ∧
      (front ++ c :: back).dropWhile (fun d => decide (d ≠ c)) = c :: back := by
  have hfront : ∀ d ∈ front, decide (d ≠ c) = true := by
    intro d hd
    apply decide_eq_true
    rintro rfl
    exact h hd
  have hstop : decide (c ≠ c) = false := decide_eq_false fun hne => hne rfl
  rw [List.takeWhile_append_of_pos hfront, List.dropWhile_append_of_pos hfront, List.takeWhile_cons,
    List.dropWhile_cons, hstop, if_neg Bool.false_ne_true, if_neg Bool.false_ne_true, List.append_nil]
  exact ⟨rfl, rfl⟩

theorem takeWhile_of_notMem (h : c ∉ s) : s.takeWhile (fun d => decide (d ≠ c)) = s := by
  have hall : ∀ d ∈ s, decide (d ≠ c) = true := by
    intro d hd
    apply decide_eq_true
    rintro rfl
    exact h hd
  have htake := @List.takeWhile_append_of_pos Char (fun d => decide (d ≠ c)) s [] hall
  rwa [List.append_nil, List.takeWhile_nil, List.append_nil] at htake

/-- A search from the front cuts off what comes before the character. -/
theorem sliceTo_memchr (hc : c.toNat < 128) (s : List Char) :
    sliceTo s ((memchr (byte c) (utf8 s)).getD (utf8 s).length) = .ok (s.takeWhile (fun d => decide (d ≠ c))) := by
  by_cases h : c ∈ s
  · obtain ⟨front, back, rfl, hfront⟩ := List.eq_append_cons_of_mem h
    rw [memchr_append_cons hc hfront, Option.getD_some, sliceTo_append, (takeWhile_append_cons hfront back).1]
  · have hwhole := sliceTo_append s []
    rw [List.append_nil] at hwhole
    rw [memchr_eq_none hc h, Option.getD_none, hwhole, takeWhile_of_notMem h]

/-! ### The scheme -/

theorem slashes_ascii : ∀ d ∈ ['/', '/'], d.toNat < 128 :=
  List.forall_mem_cons.2 ⟨by decide, List.forall_mem_singleton.2 (by decide)⟩

/-- Two slashes at the beginning. -/
theorem stripPrefix?_slashes (s : List Char) :
    ((utf8 "//".toList).isPrefixOf (utf8 s) = true ∧ ∃ rest, s = "//".toList ++ rest ∧
        stripPrefix? s "//".toList = some rest) ∨
      ((utf8 "//".toList).isPrefixOf (utf8 s) = false ∧ stripPrefix? s "//".toList = none) := by
  by_cases h : "//".toList <+: s
  · obtain ⟨rest, rfl⟩ := h
    refine .inl ⟨List.isPrefixOf_iff_prefix.2 ?_, rest, rfl, ?_⟩
    · rw [utf8_append]
      exact List.prefix_append _ _
    · have hprefix : "//".toList.isPrefixOf ("//".toList ++ rest) = true :=
        List.isPrefixOf_iff_prefix.2 (List.prefix_append _ _)
      rw [stripPrefix?, if_pos hprefix, List.drop_left]
  · refine .inr ⟨Bool.eq_false_iff.2 ?_, if_neg ?_⟩
    · intro hprefix
      exact h ((utf8_prefix_iff slashes_ascii).1 (List.isPrefixOf_iff_prefix.1 hprefix))
    · intro hprefix
      exact h (List.isPrefixOf_iff_prefix.1 hprefix)

/-- The bytes after a colon are two slashes just when the characters are. -/
theorem slashes_iff (bytes : List UInt8) (back : List Char) (h : bytes = utf8 back) :
    bytes[0]? = some (byte '/') ∧ bytes[1]? = some (byte '/') ↔ "//".toList <+: back := by
  have hslashes : utf8 "//".toList = [byte '/', byte '/'] := by decide
  have hprefix : utf8 "//".toList <+: utf8 back ↔ "//".toList <+: back := utf8_prefix_iff slashes_ascii
  rw [← hprefix, hslashes, ← h]
  constructor
  · rintro ⟨hfirst, hsecond⟩
    match bytes, hfirst, hsecond with
    | [_], _, hsecond => cases hsecond
    | a :: b :: rest, hfirst, hsecond =>
      rw [Option.some.inj hfirst, Option.some.inj hsecond]
      exact ⟨rest, rfl⟩
  · rintro ⟨rest, rfl⟩
    exact ⟨rfl, rfl⟩

/-- A URL without a scheme, by bytes and by characters. -/
theorem protocolRelative_eq (s : List Char) :
    (∃ front rest, s = front ++ rest ∧ stripPrefix? s "//".toList = some rest ∧
        (if (utf8 "//".toList).isPrefixOf (utf8 s) then some 2 else none) = some (utf8 front).length) ∨
      (stripPrefix? s "//".toList = none ∧
        (if (utf8 "//".toList).isPrefixOf (utf8 s) then some 2 else none) = none) := by
  obtain ⟨hbytes, rest, hs, hstrip⟩ | ⟨hbytes, hstrip⟩ := stripPrefix?_slashes s
  · exact .inl ⟨"//".toList, rest, hs, hstrip, if_pos hbytes⟩
  · exact .inr ⟨hstrip, if_neg (Bool.eq_false_iff.1 hbytes)⟩

theorem getElem?_after (x : List UInt8) (b : UInt8) (y : List UInt8) (i : Nat) :
    (x ++ b :: y)[x.length + (i + 1)]? = y[i]? := by
  rw [List.getElem?_append_right (by omega), Nat.add_sub_cancel_left, List.getElem?_cons_succ]

/-- Where the host starts, by bytes and by characters. -/
theorem hostStart_eq (s : List Char) :
    (∃ front rest, s = front ++ rest ∧ afterScheme s = some rest ∧ hostStart (utf8 s) = some (utf8 front).length) ∨
      (afterScheme s = none ∧ hostStart (utf8 s) = none) := by
  by_cases hcolon : ':' ∈ s
  · obtain ⟨front, back, rfl, hfront⟩ := List.eq_append_cons_of_mem hcolon
    have hbytes : utf8 (front ++ ':' :: back) = utf8 front ++ byte ':' :: utf8 back := by
      rw [utf8_append, utf8_ascii_cons (by decide)]
    have hfirst := getElem?_after (utf8 front) (byte ':') (utf8 back) 0
    have hsecond := getElem?_after (utf8 front) (byte ':') (utf8 back) 1
    have hrelative := protocolRelative_eq (front ++ ':' :: back)
    rw [afterScheme, if_pos hcolon, (takeWhile_append_cons hfront back).2, hostStart,
      memchr_append_cons (by decide) hfront]
    dsimp only
    by_cases hslashes : "//".toList <+: back
    · have hcond := (slashes_iff (utf8 back) back rfl).2 hslashes
      rw [← hfirst, ← hsecond, ← hbytes] at hcond
      obtain ⟨rest, rfl⟩ := hslashes
      have hstrip : stripPrefix? (':' :: ("//".toList ++ rest)) "://".toList = some rest := by
        have hprefix : "://".toList.isPrefixOf (':' :: ("//".toList ++ rest)) = true :=
          List.isPrefixOf_iff_prefix.2 ⟨rest, rfl⟩
        rw [stripPrefix?, if_pos hprefix]
        rfl
      rw [hstrip, if_pos hcond]
      refine .inl ⟨front ++ "://".toList, rest, ?_, rfl, ?_⟩
      · rw [List.append_assoc]
        rfl
      · rw [utf8_append, List.length_append]
        rfl
    · have hcond : ¬ ((utf8 (front ++ ':' :: back))[(utf8 front).length + 1]? = some (byte '/') ∧
          (utf8 (front ++ ':' :: back))[(utf8 front).length + 2]? = some (byte '/')) := by
        rw [hbytes, hfirst, hsecond]
        exact fun h => hslashes ((slashes_iff (utf8 back) back rfl).1 h)
      have hstrip : stripPrefix? (':' :: back) "://".toList = none := by
        apply if_neg
        intro hprefix
        exact hslashes (List.cons_prefix_cons.1 (List.isPrefixOf_iff_prefix.1 hprefix)).2
      rw [hstrip, if_neg hcond]
      exact hrelative
  · rw [afterScheme, if_neg hcolon, hostStart, memchr_eq_none (by decide) hcolon]
    exact protocolRelative_eq s

/-! ### The authority -/

theorem dropUserinfo_eq (authority : List Char) :
    dropUserinfo authority = .ok (match splitLast '@' authority with
      | some (_, host) => host
      | none => authority) := by
  obtain hnone | ⟨front, back, rfl, hback⟩ := last_cases '@' authority
  · rw [dropUserinfo, memrchr_eq_none (by decide) hnone, splitLast_eq_none hnone]
  · rw [dropUserinfo, memrchr_append_cons (by decide) front hback, splitLast_append_cons front hback]
    exact sliceFrom_after (by decide) front back

theorem hostOf_literal (front rest literal : List Char) :
    hostOf (front ++ rest) ('[' :: literal) (utf8 front).length =
      .ok (if ']' ∈ literal then some (literal.takeWhile (· ≠ ']'), rest) else none) := by
  have hhead : (utf8 ('[' :: literal)).head? = some (byte '[') := (head?_utf8_eq_iff (by decide)).2 rfl
  rw [hostOf]
  dsimp only
  rw [if_pos hhead]
  by_cases hclose : ']' ∈ literal
  · obtain ⟨address, back, rfl, haddress⟩ := List.eq_append_cons_of_mem hclose
    have hnot : ']' ∉ '[' :: address := fun hmem => (List.mem_cons.1 hmem).elim (by decide) haddress
    have hfind : memchr (byte ']') (utf8 ('[' :: (address ++ ']' :: back))) = some (utf8 ('[' :: address)).length :=
      memchr_append_cons (by decide) hnot back
    have hslice : slice ('[' :: (address ++ ']' :: back)) 1 (utf8 ('[' :: address)).length = .ok address :=
      slice_after (by decide) [] address (']' :: back)
    rw [hfind, if_pos hclose]
    dsimp only
    rw [hslice, ok_bind, sliceFrom_append, ok_bind, (takeWhile_append_cons haddress back).1]
  · have hnot : ']' ∉ '[' :: literal := fun hmem => (List.mem_cons.1 hmem).elim (by decide) hclose
    rw [memchr_eq_none (by decide) hnot, if_neg hclose]

theorem hostOf_name (front rest : List Char) {authority : List Char} (h : authority.head? ≠ some '[') :
    hostOf (front ++ rest) authority (utf8 front).length =
      .ok (if (authority.takeWhile (· ≠ ':')).isEmpty then none else some (authority.takeWhile (· ≠ ':'), rest)) := by
  have hhead : ¬ (utf8 authority).head? = some (byte '[') := fun hbyte => h ((head?_utf8_eq_iff (by decide)).1 hbyte)
  rw [hostOf]
  dsimp only
  rw [if_neg hhead, sliceTo_memchr (by decide), ok_bind, sliceFrom_append]
  split
  · rfl
  · rfl

theorem hostOf_eq (front rest authority : List Char) :
    hostOf (front ++ rest) authority (utf8 front).length = .ok (match authority with
      | '[' :: literal => if ']' ∈ literal then some (literal.takeWhile (· ≠ ']'), rest) else none
      | _ => if (authority.takeWhile (· ≠ ':')).isEmpty then none else some (authority.takeWhile (· ≠ ':'), rest)) := by
  split
  · exact hostOf_literal front rest _
  · rename_i hname
    apply hostOf_name
    intro hliteral
    obtain ⟨literal, hliteral⟩ := List.head?_eq_some_iff.1 hliteral
    exact hname literal hliteral

/-- The host and the rest are found by bytes as by characters, without a stop. -/
theorem hostAndRest_eq (url : List Char) : hostAndRest url = .ok (NetworkUtils.hostAndRest url) := by
  rw [hostAndRest, NetworkUtils.hostAndRest]
  dsimp only
  obtain ⟨front, after, hurl, hscheme, hstart⟩ | ⟨hscheme, hstart⟩ := hostStart_eq (stripSpecialSchemes url)
  · rw [hstart, hscheme, hurl, Option.bind_eq_bind, Option.bind_some]
    dsimp only
    have hbytes : bytesFrom (utf8 (front ++ after)) (utf8 front).length = .ok (utf8 after) := by
      rw [utf8_append, bytesFrom_of_le (by rw [List.length_append]; omega), List.drop_left]
    have hstop := memchr3_getD (show '/'.toNat < 128 by decide) (show '?'.toNat < 128 by decide)
      (show '#'.toNat < 128 by decide) after
    have hsplit := List.takeWhile_append_dropWhile (p := fun d => !decide (d = '/' ∨ d = '?' ∨ d = '#')) (l := after)
    generalize after.takeWhile (fun d => !decide (d = '/' ∨ d = '?' ∨ d = '#')) = authority at hstop hsplit ⊢
    generalize after.dropWhile (fun d => !decide (d = '/' ∨ d = '?' ∨ d = '#')) = rest at hsplit ⊢
    have hrestStart : ((memchr3 (byte '/') (byte '?') (byte '#') (utf8 after)).map fun i =>
        i + (utf8 front).length).getD (utf8 (front ++ after)).length = (utf8 (front ++ authority)).length := by
      rw [utf8_append, List.length_append, getD_map_add, hstop, utf8_append, List.length_append]
    subst hsplit
    rw [hbytes, ok_bind, hrestStart, ← List.append_assoc, slice_append, ok_bind]
    split
    · rfl
    · rw [dropUserinfo_eq, ok_bind]
      exact hostOf_eq (front ++ authority) rest _
  · rw [hstart, hscheme]
    rfl

/-! ### The base domain -/

theorem dot_ascii : '.'.toNat < 128 := by decide

theorem bytesTo_append (front back : List Char) :
    bytesTo (utf8 (front ++ back)) (utf8 front).length = .ok (utf8 front) := by
  rw [utf8_append, bytesTo_of_le (by rw [List.length_append]; omega), List.take_left]

/-- The label to the left of a base is looked at by bytes as by characters. -/
theorem tenantBase_eq (left base : List Char) :
    tenantBase (left ++ '.' :: base) base = .ok (
      let lbl := match splitLast '.' left with
        | some (_, lbl) => lbl
        | none => left
      if !lbl.isEmpty && !isCommonSubdomainLabel lbl then lbl ++ '.' :: base else base) := by
  have hbytes : utf8 (left ++ '.' :: base) = utf8 left ++ byte '.' :: utf8 base := by
    rw [utf8_append, utf8_ascii_cons dot_ascii]
  have hlength : (utf8 (left ++ '.' :: base)).length = (utf8 left).length + (utf8 base).length + 1 := by
    rw [hbytes, List.length_append, List.length_cons]
    omega
  rw [tenantBase]
  by_cases hleft : left = []
  · subst hleft
    rw [if_neg (by rw [hlength, utf8_nil, List.length_nil]; omega)]
    rfl
  · have hpos : 0 < (utf8 left).length := by
      obtain ⟨c, rest, rfl⟩ := List.exists_cons_of_ne_nil hleft
      have hc := c.utf8Size_pos
      rw [length_utf8_cons]
      omega
    have hstart : (utf8 (left ++ '.' :: base)).length - (utf8 base).length = (utf8 left).length + 1 := by omega
    have hdot : (utf8 (left ++ '.' :: base))[(utf8 left).length]? = some (byte '.') := by
      rw [hbytes, List.getElem?_append_right (Nat.le_refl _), Nat.sub_self]
      rfl
    rw [if_pos (by omega), sub_of_le (by omega), ok_bind, hstart, sub_of_le (by omega), ok_bind, Nat.add_sub_cancel,
      if_pos hdot, sliceTo_append, ok_bind]
    obtain hnone | ⟨front, lbl, rfl, hlbl⟩ := last_cases '.' left
    · rw [memrchr_eq_none dot_ascii hnone, splitLast_eq_none hnone]
      have hwhole := sliceFrom_append [] (left ++ '.' :: base)
      dsimp only
      split
      · exact hwhole
      · rfl
    · rw [memrchr_append_cons dot_ascii front hlbl, splitLast_append_cons front hlbl]
      have hafter := sliceFrom_after dot_ascii front (lbl ++ '.' :: base)
      dsimp only
      rw [sliceFrom_after dot_ascii front lbl, ok_bind]
      split
      · rw [List.append_assoc, List.cons_append]
        exact hafter
      · rfl

/-- The base of two labels, or of three under a common second level. -/
theorem shortBase_cases (left sld tld : List Char) :
    (∃ front label, (utf8Len tld = 2 ∧ isCommonCcSld sld) ∧ left = front ++ '.' :: label ∧ '.' ∉ label ∧
        shortBase (left ++ '.' :: (sld ++ '.' :: tld)) (utf8 (left ++ '.' :: sld)).length (utf8 left).length =
          .ok (label ++ '.' :: (sld ++ '.' :: tld))) ∨
      ((utf8Len tld = 2 ∧ isCommonCcSld sld → '.' ∉ left) ∧
        shortBase (left ++ '.' :: (sld ++ '.' :: tld)) (utf8 (left ++ '.' :: sld)).length (utf8 left).length =
          .ok (sld ++ '.' :: tld)) := by
  have htld := sliceFrom_after dot_ascii (left ++ '.' :: sld) tld
  rw [List.append_assoc, List.cons_append] at htld
  have hsld := slice_after dot_ascii left sld ('.' :: tld)
  have hbase := sliceFrom_after dot_ascii left (sld ++ '.' :: tld)
  rw [shortBase, htld, ok_bind, hsld, ok_bind, hbase, ok_bind, utf8Len_eq]
  by_cases hcc : (utf8 tld).length = 2 ∧ isCommonCcSld sld = true
  · rw [if_pos hcc, bytesTo_append, ok_bind]
    obtain hnone | ⟨front, label, rfl, hlabel⟩ := last_cases '.' left
    · rw [memrchr_eq_none dot_ascii hnone]
      exact .inr ⟨fun _ => hnone, rfl⟩
    · have hlonger := sliceFrom_after dot_ascii front (label ++ '.' :: (sld ++ '.' :: tld))
      rw [memrchr_append_cons dot_ascii front hlabel]
      refine .inl ⟨front, label, hcc, rfl, hlabel, ?_⟩
      rw [List.append_assoc, List.cons_append]
      exact hlonger
  · rw [if_neg hcc]
    exact .inr ⟨fun h => absurd h hcc, rfl⟩

/-- The base domain is found by bytes as by characters, without a stop. -/
theorem baseDomainFromHost_eq (host : List Char) :
    baseDomainFromHost host = .ok (NetworkUtils.baseDomainFromHost host) := by
  rw [baseDomainFromHost, NetworkUtils.baseDomainFromHost]
  dsimp only
  generalize (stripPrefix? _ "m.".toList).getD _ = h
  obtain hnone | ⟨front, tld, rfl, htld⟩ := last_cases '.' h
  · rw [memrchr_eq_none dot_ascii hnone, splitLast_eq_none hnone]
  · rw [memrchr_append_cons dot_ascii front htld, splitLast_append_cons front htld]
    dsimp only
    rw [bytesTo_append, ok_bind]
    obtain hnone | ⟨left, sld, rfl, hsld⟩ := last_cases '.' front
    · rw [memrchr_eq_none dot_ascii hnone, splitLast_eq_none hnone]
    · rw [memrchr_append_cons dot_ascii left hsld, splitLast_append_cons left hsld]
      dsimp only
      rw [List.append_assoc, List.cons_append]
      obtain ⟨front, label, hcc, rfl, hlabel, hbase⟩ | ⟨hcc, hbase⟩ := shortBase_cases left sld tld
      · rw [hbase, ok_bind, if_pos hcc, splitLast_append_cons front hlabel, List.append_assoc, List.cons_append]
        exact tenantBase_eq front _
      · have htenant := tenantBase_eq left (sld ++ '.' :: tld)
        rw [hbase, ok_bind]
        by_cases h : utf8Len tld = 2 ∧ isCommonCcSld sld = true
        · rw [if_pos h, splitLast_eq_none (hcc h)]
          exact htenant
        · rw [if_neg h]
          exact htenant

theorem baseDomainFromAny_returns (s : List Char) : Returns (baseDomainFromAny s) := by
  rw [baseDomainFromAny, hostAndRest_eq, ok_bind]
  split
  · exact ⟨_, baseDomainFromHost_eq _⟩
  · exact ⟨_, baseDomainFromHost_eq _⟩

/-! ### Labels -/

theorem firstLabel_returns (host : List Char) : Returns (firstLabel host) := by
  rw [firstLabel]
  generalize trimEndMatches '.' host = h
  by_cases hdot : '.' ∈ h
  · obtain ⟨front, back, rfl, hfront⟩ := List.eq_append_cons_of_mem hdot
    rw [memchr_append_cons dot_ascii hfront]
    exact ⟨front, sliceTo_append front _⟩
  · rw [memchr_eq_none dot_ascii hdot]
    exact returns_ok h

theorem nextDot_le (hb : List UInt8) {start : Nat} (h : start ≤ hb.length) : nextDot hb start ≤ hb.length := by
  rw [nextDot]
  cases hfound : memchr (byte '.') (hb.drop start) with
  | none => exact Nat.le_refl _
  | some i =>
    obtain ⟨hlt, -⟩ := List.findIdx?_eq_some_iff_getElem.1 hfound
    rw [List.length_drop] at hlt
    rw [Option.map_some, Option.getD_some]
    omega

theorem labelAt_returns {hb : List UInt8} (lb : List UInt8) {start stop : Nat} (h : start ≤ stop)
    (hstop : stop ≤ hb.length) : Returns (labelAt hb lb start stop) := by
  rw [labelAt, sub_of_le h, ok_bind]
  split
  · rw [bytesBetween, if_pos ⟨h, hstop⟩]
    exact returns_ok _
  · exact returns_ok false

/-- The loop comes to an end, and its positions are within the host. -/
theorem containsLabel_returns (hb lb : List UInt8) (start : Nat) : Returns (containsLabel hb lb start) := by
  fun_induction containsLabel hb lb start with
  | case1 start hlt panic hlabel =>
    obtain ⟨found, hfound⟩ := labelAt_returns lb (le_nextDot hb (Nat.le_of_lt hlt)) (nextDot_le hb (Nat.le_of_lt hlt))
    rw [hlabel] at hfound
    cases hfound
  | case2 start hlt hlabel => exact returns_ok true
  | case3 start hlt hlabel ih => exact ih
  | case4 start hlt => exact returns_ok false

theorem hostContainsLabelIcase_returns (host label : List Char) : Returns (hostContainsLabelIcase host label) := by
  rw [hostContainsLabelIcase]
  split
  · exact returns_ok false
  · exact containsLabel_returns _ _ _

/-! ### Endings -/

/-- A text that is not longer is compared with the end of the other one, if some of its characters are as long. -/
theorem endsWithIgnoreAsciiCase_returns_iff (hay suf : List Char) :
    Returns (endsWithIgnoreAsciiCase hay suf) ↔
      (utf8 hay).length < (utf8 suf).length ∨
        ∃ front back, hay = front ++ back ∧ (utf8 back).length = (utf8 suf).length := by
  rw [endsWithIgnoreAsciiCase]
  by_cases hlonger : (utf8 suf).length > (utf8 hay).length
  · rw [if_pos hlonger]
    exact iff_of_true (returns_ok false) (.inl hlonger)
  · have hcut : Returns (sliceFrom hay ((utf8 hay).length - (utf8 suf).length)) ↔
        ∃ front back, hay = front ++ back ∧ (utf8 back).length = (utf8 suf).length := by
      rw [sliceFrom_returns_iff]
      constructor
      · rintro ⟨front, back, rfl, hfront⟩
        refine ⟨front, back, rfl, ?_⟩
        rw [utf8_append, List.length_append] at hfront hlonger
        omega
      · rintro ⟨front, back, rfl, hback⟩
        refine ⟨front, back, rfl, ?_⟩
        rw [utf8_append, List.length_append]
        omega
    rw [if_neg hlonger, sub_of_le (by omega), ok_bind, ← hcut]
    constructor
    · rintro ⟨ends, hends⟩
      refine .inr ?_
      cases hslice : sliceFrom hay ((utf8 hay).length - (utf8 suf).length) with
      | ok back => exact returns_ok back
      | error panic =>
        rw [hslice] at hends
        cases hends
    · rintro (hshorter | ⟨back, hback⟩)
      · omega
      · rw [hback, ok_bind]
        exact returns_ok _

theorem hostIsSubdomainOf_returns (host base : List Char) : Returns (hostIsSubdomainOf host base) := by
  rw [hostIsSubdomainOf]
  generalize trimEndMatches '.' host = h
  generalize trimEndMatches '.' base = b
  split
  · exact returns_ok false
  split
  · exact returns_ok true
  split
  · exact returns_ok false
  · rename_i hshorter
    rw [sub_of_le (by omega), ok_bind, sub_of_le (by omega), ok_bind]
    split
    · rename_i hdot
      apply (endsWithIgnoreAsciiCase_returns_iff h b).2
      obtain ⟨front, back, hhost, hfront⟩ := cut_at_byte dot_ascii hdot
      refine .inr ⟨front ++ ['.'], back, ?_, ?_⟩
      · rw [hhost, List.append_assoc, List.singleton_append]
      · have hlength := congrArg (fun s => (utf8 s).length) hhost
        rw [utf8_append, List.length_append, length_utf8_ascii_cons dot_ascii] at hlength
        omega
    · exact returns_ok false

theorem relForIgnoreScript_returns (mainHostOrBase url : List Char) :
    Returns (relForIgnoreScript mainHostOrBase url) := by
  rw [relForIgnoreScript]
  split
  · exact returns_ok url
  · rw [baseDomainFromHost_eq, ok_bind]
    dsimp only
    split
    · exact returns_ok url
    · obtain ⟨brand, hbrand⟩ := firstLabel_returns (trimEndMatches '.' (NetworkUtils.baseDomainFromHost
        (trimEndMatches '.' mainHostOrBase)))
      rw [hbrand, ok_bind, hostAndRest_eq, ok_bind]
      split
      · rename_i host rest _
        obtain ⟨subdomain, hsubdomain⟩ := hostIsSubdomainOf_returns host (trimEndMatches '.'
          (NetworkUtils.baseDomainFromHost (trimEndMatches '.' mainHostOrBase)))
        obtain ⟨labelled, hlabelled⟩ := hostContainsLabelIcase_returns host brand
        have hanswer : ∀ same : Bool, Returns (if same = true then
            .ok (if rest.head? = some '/' then rest else ['/']) else .ok url : Except Panic (List Char)) := by
          intro same
          split
          · exact returns_ok _
          · exact returns_ok url
        rw [hsubdomain, ok_bind, hlabelled]
        split
        · exact hanswer true
        · exact hanswer labelled
      · exact returns_ok url

/-! ### All helpers -/

/-- No helper stops on these texts. -/
structure HelpersReturn (url host base label hay suf : List Char) : Prop where
  hostAndRest : Returns (hostAndRest url)
  endsWithIgnoreAsciiCase : Returns (endsWithIgnoreAsciiCase hay suf)
  hostIsSubdomainOf : Returns (hostIsSubdomainOf host base)
  hostContainsLabelIcase : Returns (hostContainsLabelIcase host label)
  baseDomainFromHost : Returns (baseDomainFromHost host)
  baseDomainFromAny : Returns (baseDomainFromAny url)
  firstLabel : Returns (firstLabel host)
  relForIgnoreScript : Returns (relForIgnoreScript base url)

/-- The helpers return on all texts, but for the comparison with the end of a text: it does just when the ending is longer than the text, or as long as some of the last characters of it. -/
theorem helpers_return_iff (url host base label hay suf : List Char) :
    HelpersReturn url host base label hay suf ↔
      (utf8 hay).length < (utf8 suf).length ∨
        ∃ front back, hay = front ++ back ∧ (utf8 back).length = (utf8 suf).length := by
  constructor
  · intro h
    exact (endsWithIgnoreAsciiCase_returns_iff hay suf).1 h.endsWithIgnoreAsciiCase
  · intro h
    exact ⟨⟨_, hostAndRest_eq url⟩, (endsWithIgnoreAsciiCase_returns_iff hay suf).2 h,
      hostIsSubdomainOf_returns host base, hostContainsLabelIcase_returns host label, ⟨_, baseDomainFromHost_eq host⟩,
      baseDomainFromAny_returns url, firstLabel_returns host, relForIgnoreScript_returns base url⟩

/-- The text ends within its only character where the ending would begin. -/
theorem ends_with_stops :
    endsWithIgnoreAsciiCase ['é'] ['a'] = .error .boundary ∧ ¬ HelpersReturn [] [] [] [] ['é'] ['a'] := by
  have hstop : endsWithIgnoreAsciiCase ['é'] ['a'] = .error .boundary := by rfl
  refine ⟨hstop, ?_⟩
  intro h
  obtain ⟨ends, hends⟩ := h.endsWithIgnoreAsciiCase
  rw [hstop] at hends
  cases hends

end UrlHelpers

end SpiderChrome
