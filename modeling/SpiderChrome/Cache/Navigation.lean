import SpiderChrome.Library.Run
import SpiderChrome.Cache.Session

/-!
# Cached navigations

The navigations of `page.rs` that seed the session cache, read from it and are to clear it, as sequences of asynchronous calls. An asynchronous function does nothing until it is awaited, so a call is a value, and a statement says what becomes of it. A visit runs the statements of a navigation while the tasks that they started store responses.
-/

namespace SpiderChrome

/-- The calls of other parts of the program, with their arguments. The listener and the interceptor are tasks that go on after the call. -/
inductive Call where
  | setCacheKey (cacheSiteKey : Option String) (cachePolicy : Option BasicCachePolicy)
  | spawnResponseCacheListener (cacheSite : String) (auth : Option String) (cacheStrategy : Option CacheStrategy)
      (dumpRemote : Option String) (dumpReadonly : Bool)
  | spawnFetchCacheInterceptor (auth : Option String) (policy : Option BasicCachePolicy)
      (cacheStrategy : Option CacheStrategy)
  | getCacheSite (targetUrl : String) (auth remote ns : Option String)
  | gotoWithCache (url : String) (auth : Option String)
  | gotoWithCacheHttpFuture (url : String) (auth : Option String)
  | clearLocalSessionCache (cacheKey : String)

namespace Page

def clearLocalCache (cacheSite : String) : Call := .clearLocalSessionCache cacheSite

def clearLocalCacheWithKey (keys : KeyMaker) (targetUrl : String) (auth ns : Option String) : Call :=
  .clearLocalSessionCache (keys.siteKeyForTargetUrl targetUrl auth ns)

def seedCache (cacheSite : String) (auth remote ns : Option String) : Call := .getCacheSite cacheSite auth remote ns

def spawnCacheListener (keys : KeyMaker) (targetUrl : String) (auth : Option String)
    (cacheStrategy : Option CacheStrategy) (dumpRemote : Option String) (dumpReadonly : Bool) (ns : Option String) :
    Call :=
  .spawnResponseCacheListener (keys.siteKeyForTargetUrl targetUrl auth ns) auth cacheStrategy dumpRemote dumpReadonly

def spawnCacheIntercepter (auth : Option String) (policy : Option BasicCachePolicy)
    (cacheStrategy : Option CacheStrategy) : Call :=
  .spawnFetchCacheInterceptor auth policy cacheStrategy

end Page

/-- The site key under which `handle_fetch_response_stage` stores a response: that of the URL of the resource, in no namespace. -/
def streamedSite (keys : KeyMaker) (auth : Option String) (currentUrl : String) : String :=
  keys.siteKeyForTargetUrl currentUrl auth none

/-- What becomes of a call: `let _ = call.await`, `call.await?`, `tokio::join!` of several, or `let _ = call`, which drops it. -/
inductive Stmt where
  | await (call : Call)
  | attempt (call : Call)
  | join (calls : List Call)
  | drop (call : Call)

namespace Stmt

/-- The calls that run. -/
def runs : Stmt → List Call
  | await call => [call]
  | attempt call => [call]
  | join calls => calls
  | drop _ => []

/-- The calls that are made, whether they run or not. -/
def calls : Stmt → List Call
  | await call => [call]
  | attempt call => [call]
  | join calls => calls
  | drop call => [call]

end Stmt

/-- The arguments of a navigation. -/
structure CachedNavigation where
  targetUrl : String
  auth : Option String
  cachePolicy : Option BasicCachePolicy
  cacheStrategy : Option CacheStrategy
  remote : Option String
  interceptEnabled : Option Bool
  ns : Option String

namespace CachedNavigation

/-- The site key of the navigation. -/
def cacheSite (nav : CachedNavigation) (keys : KeyMaker) : String :=
  keys.siteKeyForTargetUrl nav.targetUrl nav.auth nav.ns

def gotoWithCacheFastSeed (keys : KeyMaker) (nav : CachedNavigation) : List Stmt :=
  let cacheSite := keys.siteKeyForTargetUrl nav.targetUrl nav.auth nav.ns
  [.await (.setCacheKey (some cacheSite) nav.cachePolicy),
    .join [Page.seedCache nav.targetUrl nav.auth nav.remote nav.ns, .gotoWithCache nav.targetUrl nav.auth],
    .drop (Page.clearLocalCache cacheSite)]

/-- What `_goto_with_cache_remote` and `_http_future_with_cache` do in the same way, up to the navigation. -/
def prepareRemote (keys : KeyMaker) (nav : CachedNavigation) : List Stmt :=
  let remote := nav.remote.or (some "true")
  let cacheSite := keys.siteKeyForTargetUrl nav.targetUrl nav.auth nav.ns
  let runIntercept :=
    if nav.interceptEnabled.getD true then
      [Page.spawnCacheIntercepter nav.auth nav.cachePolicy nav.cacheStrategy]
    else []
  [.await (.setCacheKey (some cacheSite) nav.cachePolicy),
    .join ([Page.spawnCacheListener keys cacheSite nav.auth nav.cacheStrategy remote false nav.ns] ++ runIntercept ++
      [Page.seedCache nav.targetUrl nav.auth remote nav.ns])]

def gotoWithCacheRemote (keys : KeyMaker) (nav : CachedNavigation) : List Stmt :=
  nav.prepareRemote keys ++
    [.await (.gotoWithCache nav.targetUrl nav.auth),
      .drop (Page.clearLocalCache (keys.siteKeyForTargetUrl nav.targetUrl nav.auth nav.ns))]

def httpFutureWithCache (keys : KeyMaker) (nav : CachedNavigation) : List Stmt :=
  nav.prepareRemote keys ++
    [.await (.gotoWithCacheHttpFuture nav.targetUrl nav.auth),
      .drop (Page.clearLocalCache (keys.siteKeyForTargetUrl nav.targetUrl nav.auth nav.ns))]

def gotoWithCacheSeed (keys : KeyMaker) (nav : CachedNavigation) : List Stmt :=
  let cacheSite := keys.siteKeyForTargetUrl nav.targetUrl nav.auth nav.ns
  [.await (.setCacheKey (some cacheSite) nav.cachePolicy),
    .attempt (Page.seedCache nav.targetUrl nav.auth nav.remote nav.ns),
    .attempt (.gotoWithCache nav.targetUrl nav.auth),
    .drop (Page.clearLocalCacheWithKey keys nav.targetUrl nav.auth nav.ns)]

end CachedNavigation

/-- The four navigations. -/
inductive NavigationVariant where
  | fastSeed
  | remote
  | httpFuture
  | seed

def NavigationVariant.statements (keys : KeyMaker) (nav : CachedNavigation) : NavigationVariant → List Stmt
  | fastSeed => nav.gotoWithCacheFastSeed keys
  | remote => nav.gotoWithCacheRemote keys
  | httpFuture => nav.httpFutureWithCache keys
  | seed => nav.gotoWithCacheSeed keys

/-! ### Visits -/

/-- A navigation under way, with the statements that are left. -/
structure Visit where
  session : SessionStore
  left : List Stmt
  returned : Bool

/-- A task stores a response, or the navigation goes on: what it awaits succeeds or fails. The order is that in which an eviction finds the sites. -/
inductive VisitInput where
  | store (order : List String) (cacheKey : String) (entry : CacheEntry) (entryKey : String)
  | advance (ok : Bool)

namespace Call

/-- What a call does to the session cache itself; what tasks store comes as inputs of the visit. -/
def run : Call → SessionStore → SessionStore
  | clearLocalSessionCache cacheKey, s => s.clearLocalSessionCache cacheKey
  | _, s => s

end Call

namespace Visit

def new (session : SessionStore) (statements : List Stmt) : Visit := ⟨session, statements, false⟩

/-- The next statement, after which the navigation returns if it is the last, or if it was attempted and failed. -/
def advance (v : Visit) (ok : Bool) : Visit :=
  match v.left with
  | stmt :: rest =>
    let failed := match stmt with
      | .attempt _ => !ok
      | _ => false
    { session := stmt.runs.foldl (fun s call => call.run s) v.session
      left := rest
      returned := failed || rest.isEmpty }
  | [] => { v with returned := true }

/-- A visit that returned is over. -/
def step (v : Visit) : VisitInput → Visit
  | .store order cacheKey entry entryKey =>
    if v.returned then v
    else if order.Perm v.session.sites.keys then
      { v with session := v.session.sessionCacheInsert order cacheKey entry entryKey }
    else v
  | .advance ok => if v.returned then v else v.advance ok

end Visit

end SpiderChrome
