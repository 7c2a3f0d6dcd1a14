import SpiderChrome.Library.Separator
import SpiderChrome.Cache.SiteKeys
import SpiderChrome.Cache.Listener

/-!
# What keys separate

Keys are made of texts joined with separators, which are not looked for in the texts. So two requests may have one key, and the theorems say exactly which requests share theirs with no other.
-/

namespace SpiderChrome

open Separator

namespace KeyMaker

def createSiteKey (keys : KeyMaker) (targetUrl : String) (auth method : Option String) : String :=
  let normalized := (keys.parse targetUrl).getD targetUrl
  let methodPart := method.getD "GET"
  let raw := match auth with
    | some a => "site|v1|m=" ++ methodPart ++ "|url=" ++ normalized ++ "|auth=" ++ a
    | none => "site|v1|m=" ++ methodPart ++ "|url=" ++ normalized ++ "|auth="
  keys.hash raw

/-- The URL without its fragment, or the text when it is not a URL. -/
def normalized (keys : KeyMaker) (targetUrl : String) : String := (keys.parse targetUrl).getD targetUrl

def Normal (keys : KeyMaker) (url : String) : Prop := ∃ targetUrl, keys.normalized targetUrl = url

/-! ### What separates means -/

/-- No other URL, credentials or namespace have the site key of these. -/
def SiteKeySeparates (keys : KeyMaker) (targetUrl : String) (auth ns : Option String) : Prop :=
  ∀ targetUrl' auth' ns',
    keys.siteKeyForTargetUrl targetUrl' auth' ns' = keys.siteKeyForTargetUrl targetUrl auth ns →
      keys.normalized targetUrl' = keys.normalized targetUrl ∧ auth'.getD "" = auth.getD "" ∧
        ns'.getD "" = ns.getD ""

/-- No other method, URL or credentials have the key that is created for these. -/
def CreatedKeySeparates (keys : KeyMaker) (targetUrl : String) (auth method : Option String) : Prop :=
  ∀ targetUrl' auth' method',
    keys.createSiteKey targetUrl' auth' method' = keys.createSiteKey targetUrl auth method →
      method'.getD "GET" = method.getD "GET" ∧ keys.normalized targetUrl' = keys.normalized targetUrl ∧
        auth'.getD "" = auth.getD ""

/-- Neither a part of the URL before an `|auth=` in it nor the URL continued with the credentials up to an `|auth=` in them is itself a URL. -/
structure OneUrl (keys : KeyMaker) (url auth : String) : Prop where
  within : ∀ front back, url = front ++ "|auth=" ++ back → ¬ keys.Normal front
  beyond : ∀ front back, auth = front ++ "|auth=" ++ back → ¬ keys.Normal (url ++ "|auth=" ++ front)

structure PlainSite (keys : KeyMaker) (url auth ns : String) : Prop where
  oneUrl : keys.OneUrl url auth
  plainAuth : ¬ Occurs "|ns=" auth
  plainNs : ¬ Occurs "|ns=" ns

/-- The text begins with a URL before an `|auth=`. -/
def UrlBeforeAuth (keys : KeyMaker) (text : String) : Prop :=
  ∃ url rest, text = url ++ "|auth=" ++ rest ∧ keys.Normal url

/-- After no `|url=` in the method, the URL or the credentials there is another URL before an `|auth=`. -/
structure PlainRequest (keys : KeyMaker) (method url auth : String) : Prop where
  oneUrl : keys.OneUrl url auth
  inMethod : ∀ front back, method = front ++ "|url=" ++ back →
    ¬ keys.UrlBeforeAuth (back ++ "|url=" ++ (url ++ "|auth=" ++ auth))
  inUrl : ∀ front back, url = front ++ "|url=" ++ back → ¬ keys.UrlBeforeAuth (back ++ "|auth=" ++ auth)
  inAuth : ∀ front back, auth = front ++ "|url=" ++ back → ¬ keys.UrlBeforeAuth back

variable {keys : KeyMaker} {url auth ns method : String}

/-! ### The separators -/

theorem marked_auth : MarkedBy '|' "|auth=".toList := ⟨_, rfl, by decide⟩

theorem marked_ns : MarkedBy '|' "|ns=".toList := ⟨_, rfl, by decide⟩

theorem marked_url : MarkedBy '|' "|url=".toList := ⟨_, rfl, by decide⟩

theorem url_ne_auth (s y : String) : "|url=" ++ s ≠ "|auth=" ++ y := by
  intro heq
  have hlist := congrArg String.toList heq
  rw [String.toList_append, String.toList_append] at hlist
  have hsecond := (List.cons.inj (List.cons.inj hlist).2).1
  exact absurd hsecond (by decide)

/-- A text that goes on after a separator is not its own beginning. -/
theorem ne_extended {sep : String} (hsep : sep ≠ "") (s y : String) : s ++ sep ++ y ≠ s := by
  intro heq
  have hlength := congrArg String.length heq
  rw [String.length_append, String.length_append] at hlength
  have hnonempty : sep.length ≠ 0 := fun hzero => hsep (String.length_eq_zero_iff.1 hzero)
  omega

/-! ### The URL -/

/-- Only the URL itself is cut off at an `|auth=`. -/
theorem oneUrl_iff : keys.OneUrl url auth ↔
    ∀ url' rest, url' ++ "|auth=" ++ rest = url ++ "|auth=" ++ auth → keys.Normal url' → url' = url ∧ rest = auth := by
  constructor
  · intro h url' rest heq hnormal
    obtain hsame | ⟨r, hurl, -⟩ | ⟨r, rfl, hauth⟩ := text_cases_self marked_auth heq
    · exact hsame
    · exact absurd hnormal (h.within url' r hurl)
    · exact absurd hnormal (h.beyond r rest hauth)
  · intro h
    constructor
    · rintro front back rfl hnormal
      have hfront := (h front (back ++ "|auth=" ++ auth) (by simp only [String.append_assoc]) hnormal).1
      exact ne_extended (by decide) front back hfront.symm
    · rintro front back rfl hnormal
      have hlonger := (h (url ++ "|auth=" ++ front) back (by simp only [String.append_assoc]) hnormal).1
      exact ne_extended (by decide) url front hlonger

/-! ### The site key -/

theorem siteText_eq (url auth ns : String) :
    siteText url auth ns = "v1|url=" ++ (url ++ "|auth=" ++ auth ++ "|ns=" ++ ns) := by
  simp only [siteText, String.append_assoc]

theorem siteText_inj_iff {url' auth' ns' : String} :
    siteText url' auth' ns' = siteText url auth ns ↔
      url' ++ "|auth=" ++ auth' ++ "|ns=" ++ ns' = url ++ "|auth=" ++ auth ++ "|ns=" ++ ns := by
  rw [siteText_eq, siteText_eq, String.append_right_inj]

/-- A URL, credentials and a namespace are read back from their text. -/
theorem PlainSite.text_inj (h : keys.PlainSite url auth ns) {url' auth' ns' : String}
    (heq : siteText url' auth' ns' = siteText url auth ns) (hnormal : keys.Normal url') :
    url' = url ∧ auth' = auth ∧ ns' = ns := by
  rw [siteText_inj_iff] at heq
  have hfront : ∃ rest, url' ++ "|auth=" ++ rest = url ++ "|auth=" ++ auth := by
    obtain ⟨hfront, -⟩ | ⟨r, hfront, -⟩ | ⟨r, -, hns⟩ := text_cases_self marked_ns heq
    · exact ⟨auth', hfront⟩
    · refine ⟨auth' ++ "|ns=" ++ r, ?_⟩
      rw [hfront]
      simp only [String.append_assoc]
    · exact absurd ⟨r, ns', hns⟩ h.plainNs
  obtain ⟨rest, hrest⟩ := hfront
  obtain ⟨rfl, -⟩ := oneUrl_iff.1 h.oneUrl url' rest hrest hnormal
  have hback : auth' ++ "|ns=" ++ ns' = auth ++ "|ns=" ++ ns := by
    simp only [String.append_assoc, String.append_right_inj] at heq ⊢
    exact heq
  obtain ⟨hauth, hns⟩ := join_inj marked_ns h.plainAuth h.plainNs hback
  exact ⟨rfl, hauth, hns⟩

/-- When they are read back from no other text, the separators are where they belong. -/
theorem plainSite_of_text_inj (hurl : keys.Normal url)
    (h : ∀ url' auth' ns', siteText url' auth' ns' = siteText url auth ns → keys.Normal url' →
      url' = url ∧ auth' = auth ∧ ns' = ns) : keys.PlainSite url auth ns where
  oneUrl := by
    apply oneUrl_iff.2
    intro url' rest heq hnormal
    have hsame := h url' rest ns (siteText_inj_iff.2 (by rw [heq])) hnormal
    exact ⟨hsame.1, hsame.2.1⟩
  plainAuth := by
    rintro ⟨front, back, rfl⟩
    have htext : siteText url front (back ++ "|ns=" ++ ns) = siteText url (front ++ "|ns=" ++ back) ns := by
      simp only [siteText, String.append_assoc]
    exact ne_extended (by decide) front back (h _ _ _ htext hurl).2.1.symm
  plainNs := by
    rintro ⟨front, back, rfl⟩
    have htext : siteText url (auth ++ "|ns=" ++ front) back = siteText url auth (front ++ "|ns=" ++ back) := by
      simp only [siteText, String.append_assoc]
    exact ne_extended (by decide) auth front (h _ _ _ htext hurl).2.1

theorem siteKeySeparates_iff (hinj : Function.Injective keys.hash) (targetUrl : String) (auth ns : Option String) :
    keys.SiteKeySeparates targetUrl auth ns ↔
      keys.PlainSite (keys.normalized targetUrl) (auth.getD "") (ns.getD "") := by
  constructor
  · intro h
    apply plainSite_of_text_inj ⟨targetUrl, rfl⟩
    rintro url' auth' ns' heq ⟨targetUrl', rfl⟩
    exact h targetUrl' (some auth') (some ns') (congrArg keys.hash heq)
  · intro h targetUrl' auth' ns' heq
    exact h.text_inj (hinj heq) ⟨targetUrl', rfl⟩

/-! ### The created key -/

theorem createSiteKey_eq (keys : KeyMaker) (targetUrl : String) (auth method : Option String) :
    keys.createSiteKey targetUrl auth method =
      keys.hash ("site|v1|m=" ++ (method.getD "GET" ++ "|url=" ++
        (keys.normalized targetUrl ++ "|auth=" ++ auth.getD ""))) := by
  cases auth with
  | none => simp only [createSiteKey, normalized, Option.getD_none, String.append_assoc, String.append_empty]
  | some auth => simp only [createSiteKey, normalized, Option.getD_some, String.append_assoc]

theorem PlainRequest.text_inj (h : keys.PlainRequest method url auth) {method' url' auth' : String}
    (heq : method' ++ "|url=" ++ (url' ++ "|auth=" ++ auth') = method ++ "|url=" ++ (url ++ "|auth=" ++ auth))
    (hnormal : keys.Normal url') : method' = method ∧ url' = url ∧ auth' = auth := by
  obtain ⟨hmethod, hrest⟩ | ⟨r, hmethod, hrest⟩ | ⟨r, -, hrest⟩ := text_cases_self marked_url heq
  · exact ⟨hmethod, oneUrl_iff.1 h.oneUrl url' auth' hrest hnormal⟩
  · exact absurd ⟨url', auth', hrest.symm, hnormal⟩ (h.inMethod method' r hmethod)
  · obtain ⟨-, hsame⟩ | ⟨r', hurl, hback⟩ | ⟨r', -, hauth⟩ := text_cases marked_url marked_auth hrest.symm
    · exact absurd hsame (url_ne_auth _ _)
    · exact absurd ⟨url', auth', hback.symm, hnormal⟩ (h.inUrl r r' hurl)
    · exact absurd ⟨url', auth', rfl, hnormal⟩ (h.inAuth r' _ hauth)

theorem plainRequest_of_text_inj
    (h : ∀ method' url' auth', method' ++ "|url=" ++ (url' ++ "|auth=" ++ auth') =
      method ++ "|url=" ++ (url ++ "|auth=" ++ auth) → keys.Normal url' →
        method' = method ∧ url' = url ∧ auth' = auth) : keys.PlainRequest method url auth where
  oneUrl := by
    apply oneUrl_iff.2
    intro url' rest heq hnormal
    exact (h method url' rest (by rw [heq]) hnormal).2
  inMethod := by
    rintro front back rfl ⟨url', rest, htext, hnormal⟩
    have heq : front ++ "|url=" ++ (url' ++ "|auth=" ++ rest) =
        front ++ "|url=" ++ back ++ "|url=" ++ (url ++ "|auth=" ++ auth) := by
      rw [← htext]
      simp only [String.append_assoc]
    exact ne_extended (by decide) front back (h front url' rest heq hnormal).1.symm
  inUrl := by
    rintro front back rfl ⟨url', rest, htext, hnormal⟩
    have heq : method ++ "|url=" ++ front ++ "|url=" ++ (url' ++ "|auth=" ++ rest) =
        method ++ "|url=" ++ (front ++ "|url=" ++ back ++ "|auth=" ++ auth) := by
      rw [← htext]
      simp only [String.append_assoc]
    exact ne_extended (by decide) method front (h _ url' rest heq hnormal).1
  inAuth := by
    rintro front back rfl ⟨url', rest, rfl, hnormal⟩
    have heq : method ++ "|url=" ++ (url ++ "|auth=" ++ front) ++ "|url=" ++ (url' ++ "|auth=" ++ rest) =
        method ++ "|url=" ++ (url ++ "|auth=" ++ (front ++ "|url=" ++ (url' ++ "|auth=" ++ rest))) := by
      simp only [String.append_assoc]
    exact ne_extended (by decide) method _ (h _ url' rest heq hnormal).1

theorem createdKeySeparates_iff (hinj : Function.Injective keys.hash) (targetUrl : String)
    (auth method : Option String) :
    keys.CreatedKeySeparates targetUrl auth method ↔
      keys.PlainRequest (method.getD "GET") (keys.normalized targetUrl) (auth.getD "") := by
  constructor
  · intro h
    apply plainRequest_of_text_inj
    rintro method' url' auth' heq ⟨targetUrl', rfl⟩
    apply h targetUrl' (some auth') (some method')
    rw [createSiteKey_eq, createSiteKey_eq, Option.getD_some, Option.getD_some, heq]
  · intro h targetUrl' auth' method' heq
    rw [createSiteKey_eq, createSiteKey_eq] at heq
    have htext := (String.append_right_inj _).1 (hinj heq)
    exact h.text_inj htext ⟨targetUrl', rfl⟩

/-- A site key is that of one URL, credentials and namespace, and a created key that of one method, URL and credentials, just when the separators are in their places only, or what stands between them elsewhere is no URL. -/
theorem keys_separate_iff (hinj : Function.Injective keys.hash) (targetUrl : String) (auth ns method : Option String) :
    (keys.SiteKeySeparates targetUrl auth ns ↔
        keys.PlainSite (keys.normalized targetUrl) (auth.getD "") (ns.getD "")) ∧
      (keys.CreatedKeySeparates targetUrl auth method ↔
        keys.PlainRequest (method.getD "GET") (keys.normalized targetUrl) (auth.getD "")) :=
  ⟨siteKeySeparates_iff hinj targetUrl auth ns, createdKeySeparates_iff hinj targetUrl auth method⟩

/-! ### Texts without a bar -/

theorem mem_of_eq_join {c : Char} {sep front back text : String} (hsep : c ∈ sep.toList)
    (h : text = front ++ sep ++ back) : c ∈ text.toList := by
  rw [h, String.toList_append, String.toList_append]
  exact List.mem_append_left _ (List.mem_append_right _ hsep)

theorem oneUrl_of_no_bar (hurl : '|' ∉ url.toList) (hauth : '|' ∉ auth.toList) : keys.OneUrl url auth where
  within _ _ h := absurd (mem_of_eq_join (by decide) h) hurl
  beyond _ _ h := absurd (mem_of_eq_join (by decide) h) hauth

theorem plainSite_of_no_bar (hurl : '|' ∉ url.toList) (hauth : '|' ∉ auth.toList) (hns : '|' ∉ ns.toList) :
    keys.PlainSite url auth ns where
  oneUrl := oneUrl_of_no_bar hurl hauth
  plainAuth := fun ⟨_, _, h⟩ => hauth (mem_of_eq_join (by decide) h)
  plainNs := fun ⟨_, _, h⟩ => hns (mem_of_eq_join (by decide) h)

theorem plainRequest_of_no_bar (hmethod : '|' ∉ method.toList) (hurl : '|' ∉ url.toList)
    (hauth : '|' ∉ auth.toList) : keys.PlainRequest method url auth where
  oneUrl := oneUrl_of_no_bar hurl hauth
  inMethod _ _ h := absurd (mem_of_eq_join (by decide) h) hmethod
  inUrl _ _ h := absurd (mem_of_eq_join (by decide) h) hurl
  inAuth _ _ h := absurd (mem_of_eq_join (by decide) h) hauth

/-- A user and a region without bars share their keys with no one. -/
theorem keys_separate_user :
    sampleKeys.SiteKeySeparates "https://example.com/" (some "alice") (some "eu") ∧
      sampleKeys.CreatedKeySeparates "https://example.com/" (some "alice") (some "POST") :=
  have h := keys_separate_iff sampleKeys_ideal.injective "https://example.com/" (some "alice") (some "eu") (some "POST")
  ⟨h.1.2 (plainSite_of_no_bar (by decide) (by decide) (by decide)),
    h.2.2 (plainRequest_of_no_bar (by decide) (by decide) (by decide))⟩

/-- Two tenants share their site key, and a page the key that is created for another page and user. -/
theorem separators_collide :
    Function.Injective sampleKeys.hash ∧
      sampleKeys.siteKeyForTargetUrl "https://example.com/" (some "a|ns=b") none =
        sampleKeys.siteKeyForTargetUrl "https://example.com/" (some "a") (some "b|ns=") ∧
      ¬ sampleKeys.SiteKeySeparates "https://example.com/" (some "a|ns=b") none ∧
      sampleKeys.createSiteKey "https://example.com/" (some "x|auth=y") none =
        sampleKeys.createSiteKey "https://example.com/|auth=x" (some "y") none ∧
      ¬ sampleKeys.CreatedKeySeparates "https://example.com/" (some "x|auth=y") none := by
  have hsite : sampleKeys.siteKeyForTargetUrl "https://example.com/" (some "a|ns=b") none =
      sampleKeys.siteKeyForTargetUrl "https://example.com/" (some "a") (some "b|ns=") := by
    apply congrArg sampleKeys.hash
    simp only [siteText_inj_iff, String.append_assoc, String.append_right_inj, Option.getD_some, Option.getD_none]
    decide
  have hcreated : sampleKeys.createSiteKey "https://example.com/" (some "x|auth=y") none =
      sampleKeys.createSiteKey "https://example.com/|auth=x" (some "y") none := by
    have hpage : sampleKeys.normalized "https://example.com/" = "https://example.com/" := by decide
    have hother : sampleKeys.normalized "https://example.com/|auth=x" = "https://example.com/|auth=x" := by decide
    rw [createSiteKey_eq, createSiteKey_eq, hpage, hother]
    apply congrArg sampleKeys.hash
    decide
  refine ⟨sampleKeys_ideal.injective, hsite, ?_, hcreated, ?_⟩
  · intro h
    exact absurd (h _ _ _ hsite.symm).2.1 (by decide)
  · intro h
    exact absurd (h _ _ _ hcreated.symm).2.2 (by decide)

end KeyMaker

/-! ### Resource keys -/

def getCachedUrl (disk : DiskCache) (inTime : Bool) (systemNow : Instant) (targetUrl : String)
    (auth : Option String) : Option (List UInt8) :=
  if inTime then
    match disk.get (createCacheKeyRaw targetUrl none auth) with
    | some (response, isStale) => if !isStale systemNow then some response.body else none
    | none => none
  else none

/-- No other method, URI or credentials have the key of these. -/
def CacheKeySeparates (method uri : String) (auth : Option String) : Prop :=
  ∀ method' uri' auth', createCacheKeyRaw uri' (some method') auth' = createCacheKeyRaw uri (some method) auth →
    method' = method ∧ uri' = uri ∧ auth' = auth

/-- A response that is stored for these is found by no lookup for another URI or other credentials. -/
def StoredForOne (method uri : String) (auth : Option String) : Prop :=
  ∀ (disk : DiskCache) (entry : CacheEntry) (inTime : Bool) (systemNow : Instant) (uri' : String)
    (auth' : Option String) (policy : Option BasicCachePolicy), ¬ (uri' = uri ∧ auth' = auth) →
      getCachedUrl (disk.set (createCacheKeyRaw uri (some method) auth) entry) inTime systemNow uri' auth' =
          getCachedUrl disk inTime systemNow uri' auth' ∧
        getCachedUrlWithMetadata (disk.set (createCacheKeyRaw uri (some method) auth) entry) inTime systemNow uri'
            auth' policy =
          getCachedUrlWithMetadata disk inTime systemNow uri' auth' policy

theorem marked_colon : MarkedBy ':' ":".toList := ⟨_, rfl, by decide⟩

variable {method uri : String} {auth : Option String}

/-- What follows the method in a key. -/
def resourceText (uri : String) : Option String → String
  | some auth => uri ++ ":" ++ auth
  | none => uri

theorem createCacheKeyRaw_eq (uri : String) (overrideMethod auth : Option String) :
    createCacheKeyRaw uri overrideMethod auth = overrideMethod.getD "GET" ++ ":" ++ resourceText uri auth := by
  cases auth with
  | none => rfl
  | some auth => simp only [createCacheKeyRaw, resourceText, String.append_assoc]

theorem length_le_resourceText (uri : String) (auth : Option String) : uri.length ≤ (resourceText uri auth).length := by
  cases auth with
  | none => exact Nat.le_refl _
  | some auth =>
    rw [resourceText, String.length_append, String.length_append]
    omega

/-- Only a URI without a colon and without credentials is read back from its text. -/
theorem resourceText_separates_iff :
    (∀ uri' auth', resourceText uri' auth' = resourceText uri auth → uri' = uri ∧ auth' = auth) ↔
      auth = none ∧ ¬ Occurs ":" uri := by
  constructor
  · intro h
    cases auth with
    | some auth => cases (h (uri ++ ":" ++ auth) none rfl).2
    | none =>
      refine ⟨rfl, ?_⟩
      rintro ⟨front, back, rfl⟩
      cases (h front (some back) rfl).2
  · rintro ⟨rfl, huri⟩ uri' auth' heq
    cases auth' with
    | none => exact ⟨heq, rfl⟩
    | some auth' => exact absurd ⟨uri', auth', heq.symm⟩ huri

theorem cacheKeySeparates_iff :
    CacheKeySeparates method uri auth ↔ ¬ Occurs ":" method ∧ auth = none ∧ ¬ Occurs ":" uri := by
  simp only [CacheKeySeparates, createCacheKeyRaw_eq, Option.getD_some]
  rw [← resourceText_separates_iff]
  constructor
  · intro h
    constructor
    · rintro ⟨front, back, rfl⟩
      have hkey : front ++ ":" ++ resourceText (back ++ ":" ++ resourceText uri auth) none =
          front ++ ":" ++ back ++ ":" ++ resourceText uri auth := by
        simp only [resourceText, String.append_assoc]
      exact KeyMaker.ne_extended (by decide) front back (h _ _ _ hkey).1.symm
    · intro uri' auth' hresource
      exact (h method uri' auth' (by rw [hresource])).2
  · rintro ⟨hmethod, hresource⟩ method' uri' auth' hkey
    obtain ⟨rfl, huri⟩ := resourceText_separates_iff.1 hresource
    obtain ⟨rfl, hrest⟩ := join_inj marked_colon hmethod huri hkey
    exact ⟨rfl, hresource uri' auth' hrest⟩

/-! ### Lookups -/

/-- A lookup reads what is under its own key. -/
theorem lookups_set_of_ne {key : String} (entry : CacheEntry) {uri : String} {auth : Option String}
    (h : createCacheKeyRaw uri none auth ≠ key) (disk : DiskCache) (inTime : Bool) (systemNow : Instant)
    (policy : Option BasicCachePolicy) :
    getCachedUrl (disk.set key entry) inTime systemNow uri auth = getCachedUrl disk inTime systemNow uri auth ∧
      getCachedUrlWithMetadata (disk.set key entry) inTime systemNow uri auth policy =
        getCachedUrlWithMetadata disk inTime systemNow uri auth policy := by
  have hget : (disk.set key entry).get (createCacheKeyRaw uri none auth) =
      disk.get (createCacheKeyRaw uri none auth) := Table.get_set_of_ne disk entry h
  simp only [getCachedUrl, getCachedUrlWithMetadata, hget, and_self]

/-- A response that is not stale is found under its key. -/
theorem getCachedUrl_set_self {key : String} {uri : String} {auth : Option String}
    (h : createCacheKeyRaw uri none auth = key) (disk : DiskCache) (response : CachedResponse) :
    getCachedUrl (disk.set key (response, fun _ => false)) true 0 uri auth = some response.body := by
  rw [getCachedUrl, h, if_pos rfl, Table.get_set_self]
  rfl

theorem storedForOne_iff_keys :
    StoredForOne method uri auth ↔
      ∀ uri' auth', createCacheKeyRaw uri' none auth' = createCacheKeyRaw uri (some method) auth →
        uri' = uri ∧ auth' = auth := by
  constructor
  · intro h uri' auth' hkey
    by_contra hother
    have hsame := (h ∅ (⟨[], [], 200⟩, fun _ => false) true 0 uri' auth' none hother).1
    rw [getCachedUrl_set_self hkey] at hsame
    cases hsame
  · intro h disk entry inTime systemNow uri' auth' policy hother
    have hkey : createCacheKeyRaw uri' none auth' ≠ createCacheKeyRaw uri (some method) auth :=
      fun heq => hother (h uri' auth' heq)
    exact lookups_set_of_ne entry hkey disk inTime systemNow policy

theorem storedForOne_iff :
    StoredForOne method uri auth ↔
      (∀ rest, method ≠ "GET" ++ ":" ++ rest) ∧ (method = "GET" → auth = none ∧ ¬ Occurs ":" uri) := by
  rw [storedForOne_iff_keys, ← resourceText_separates_iff]
  simp only [createCacheKeyRaw_eq, Option.getD_some, Option.getD_none]
  constructor
  · intro h
    constructor
    · rintro rest rfl
      have hkey : "GET" ++ ":" ++ resourceText (rest ++ ":" ++ resourceText uri auth) none =
          "GET" ++ ":" ++ rest ++ ":" ++ resourceText uri auth := by
        simp only [resourceText, String.append_assoc]
      have hlonger := (h _ none hkey).1
      have hlength := congrArg String.length hlonger
      have hle := length_le_resourceText uri auth
      have hcolon : ":".length = 1 := rfl
      rw [String.length_append, String.length_append] at hlength
      omega
    · rintro rfl uri' auth' hresource
      exact h uri' auth' (by rw [hresource])
  · rintro ⟨hget, hresource⟩ uri' auth' hkey
    obtain ⟨rfl, hrest⟩ | ⟨r, hmethod, -⟩ | ⟨r, hnone, -⟩ := text_cases_self marked_colon hkey
    · exact hresource rfl uri' auth' hrest
    · exact absurd hmethod (hget r)
    · have hcolon : ':' ∈ "GET".toList := KeyMaker.mem_of_eq_join (by decide) hnone
      exact absurd hcolon (by decide)

/-- A key separates a request from all others just when there is no colon in the method and the URI and there are no credentials; what is stored is found for its own URI and credentials only just when it is not for a `GET`, or there are no credentials and no colon in the URI. -/
theorem cache_keys_separate_iff (method uri : String) (auth : Option String) :
    (CacheKeySeparates method uri auth ↔ ¬ Occurs ":" method ∧ auth = none ∧ ¬ Occurs ":" uri) ∧
      (StoredForOne method uri auth ↔
        (∀ rest, method ≠ "GET" ++ ":" ++ rest) ∧ (method = "GET" → auth = none ∧ ¬ Occurs ":" uri)) :=
  ⟨cacheKeySeparates_iff, storedForOne_iff⟩

/-- A body stored with credentials is found without them, for a URI that ends with them. -/
theorem credentials_found_in_uri :
    createCacheKeyRaw "https://example.com/a" (some "GET") (some "secret") =
        createCacheKeyRaw "https://example.com/a:secret" (some "GET") none ∧
      getCachedUrl (Table.set ∅ (createCacheKeyRaw "https://example.com/a" (some "GET") (some "secret"))
          (⟨[1], [], 200⟩, fun _ => false)) true 0 "https://example.com/a:secret" none = some [1] ∧
      ¬ CacheKeySeparates "GET" "https://example.com/a" (some "secret") ∧
      ¬ StoredForOne "GET" "https://example.com/a" (some "secret") := by
  refine ⟨by decide, ?_, ?_, ?_⟩
  · apply getCachedUrl_set_self
    decide
  · intro h
    cases (cacheKeySeparates_iff.1 h).2.1
  · intro h
    cases ((storedForOne_iff.1 h).2 rfl).1

end SpiderChrome
