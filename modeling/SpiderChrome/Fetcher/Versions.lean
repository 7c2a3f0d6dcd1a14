import SpiderChrome.Pdl.Lines
import SpiderChrome.Network.Helpers

/-!
# The version of a browser

A version is a channel, four numbers, a revision or a milestone, and what the host answers makes it a build. `reads_back` says how versions are read back: each as what it is, except that a milestone is read as a revision. `paths_of_versions` says that the builds of two versions are kept apart, but that their archives are downloaded to one file where they differ in the last number only.
-/

namespace SpiderChrome.Fetcher

open NetworkManager (parseU64 trim)
open NetworkUtils (splitLast)
open UrlHelpers (splitLast_append_cons)
open Pdl

/-- `parse::<u32>`. -/
def parseU32 (s : List Char) : Option UInt32 :=
  match parseU64 s with
  | some n => if n.toNat < UInt32.size then some n.toUInt32 else none
  | none => none

inductive Channel where
  | canary
  | dev
  | beta
  | stable
deriving DecidableEq

structure Version where
  major : UInt32
  minor : UInt32
  build : UInt32
  patch : UInt32
deriving DecidableEq

inductive BrowserVersion where
  | channel (channel : Channel)
  | revision (revision : UInt32)
  | version (version : Version)
  | milestone (milestone : UInt32)
deriving DecidableEq

inductive VersionError where
  | resolveFailed (text : String)
  | invalidChannel (text : List Char)
  | invalidVersion (text : List Char)
  | invalidRevision (text : List Char)
  | invalidMilestone (text : List Char)
deriving DecidableEq

/-- A number as it is written. -/
def number (n : UInt32) : List Char := Nat.toDigits 10 n.toNat

namespace Channel

def asKey : Channel → List Char
  | canary => "Canary".toList
  | dev => "Dev".toList
  | beta => "Beta".toList
  | stable => "Stable".toList

def display : Channel → List Char
  | canary => "canary".toList
  | dev => "dev".toList
  | beta => "beta".toList
  | stable => "stable".toList

def fromStr (s : List Char) : Except VersionError Channel :=
  match [canary, dev, beta, stable].find? fun channel => s = channel.display ∨ s = channel.asKey with
  | some channel => .ok channel
  | none => .error (.invalidChannel s)

end Channel

namespace Version

def display (v : Version) : List Char :=
  number v.major ++ '.' :: (number v.minor ++ '.' :: (number v.build ++ '.' :: number v.patch))

def fromStr (s : List Char) : Except VersionError Version :=
  match s.splitOn '.' with
  | [a, b, c, d] =>
    match parseU32 a, parseU32 b, parseU32 c, parseU32 d with
    | some major, some minor, some build, some patch => .ok ⟨major, minor, build, patch⟩
    | _, _, _, _ => .error (.invalidVersion s)
  | _ => .error (.invalidVersion s)

end Version

def Revision.fromStr (s : List Char) : Except VersionError UInt32 :=
  match parseU32 s with
  | some revision => .ok revision
  | none => .error (.invalidRevision s)

namespace BrowserVersion

def display : BrowserVersion → List Char
  | channel c => c.display
  | revision r => number r
  | version v => v.display
  | milestone m => number m

/-- The first kind of version that the text is one of. -/
def fromStr (s : List Char) : Except VersionError BrowserVersion :=
  match Channel.fromStr s with
  | .ok c => .ok (channel c)
  | .error _ =>
    match Version.fromStr s with
    | .ok v => .ok (version v)
    | .error _ =>
      match Revision.fromStr s with
      | .ok r => .ok (revision r)
      | .error _ => .error (.invalidVersion s)

/-- What the text of a version says. -/
def read : BrowserVersion → BrowserVersion
  | milestone m => revision m
  | v => v

end BrowserVersion

/-! ### Builds and their places -/

inductive BrowserKind where
  | chrome
  | chromeHeadlessShell
  | chromium
deriving DecidableEq

inductive Platform where
  | linux
  | mac
  | macArm
  | win32
  | win64
deriving DecidableEq

structure BuildInfo where
  revision : Option UInt32
  version : Option (List Char)
  id : List Char
deriving DecidableEq

namespace BuildInfo

def ofRevision (revision : UInt32) : BuildInfo := ⟨some revision, none, number revision⟩

def ofVersion (version : List Char) : BuildInfo := ⟨none, some version, version⟩

def both (version : List Char) (revision : UInt32) : BuildInfo := ⟨some revision, some version, version⟩

end BuildInfo

/-- An entry of the host's tables. -/
structure HostVersion where
  version : List Char
  revision : List Char

/-- What the host answers, or why it does not. -/
structure BrowserHost where
  lastChange : Platform → Except String (List Char)
  lastKnownGoodVersions : Except String (List Char → Option HostVersion)
  latestVersionsPerMilestone : Except String (List Char → Option HostVersion)

def buildOf (entry : HostVersion) : Except VersionError BuildInfo :=
  (Revision.fromStr entry.revision).map (BuildInfo.both entry.version)

/-- The entry of a table of the host under a key. -/
def lookUp (table : Except String (List Char → Option HostVersion)) (key : List Char) (missing : VersionError) :
    Except VersionError BuildInfo :=
  match table with
  | .error text => .error (.resolveFailed text)
  | .ok entries =>
    match entries key with
    | some entry => buildOf entry
    | none => .error missing

def Channel.resolve (host : BrowserHost) (platform : Platform) : Channel → BrowserKind → Except VersionError BuildInfo
  | canary, .chromium =>
    match host.lastChange platform with
    | .error text => .error (.resolveFailed text)
    | .ok text => (Revision.fromStr (trim text)).map BuildInfo.ofRevision
  | _, .chromium => .error (.resolveFailed "Only the Canary channel is supported for Chromium")
  | c, _ => lookUp host.lastKnownGoodVersions c.asKey (.invalidChannel c.display)

def Revision.resolve (revision : UInt32) : BrowserKind → Except VersionError BuildInfo
  | .chromium => .ok (.ofRevision revision)
  | _ => .error (.resolveFailed "Revision-based lookup is only supported for Chromium, use Version or Channel for Chrome/ChromeHeadlessShell")

def Version.resolve (v : Version) : BrowserKind → Except VersionError BuildInfo
  | .chromium => .error (.resolveFailed "Version strings are not supported for Chromium, use Revision instead")
  | _ => .ok (.ofVersion v.display)

def Milestone.resolve (host : BrowserHost) (milestone : UInt32) : BrowserKind → Except VersionError BuildInfo
  | .chromium => .error (.resolveFailed "Milestone is not supported for Chromium")
  | _ => lookUp host.latestVersionsPerMilestone (number milestone) (.invalidMilestone (number milestone))

def BrowserVersion.resolve (host : BrowserHost) (kind : BrowserKind) (platform : Platform) :
    BrowserVersion → Except VersionError BuildInfo
  | revision r => Revision.resolve r kind
  | channel c => c.resolve host platform kind
  | version v => v.resolve kind
  | milestone m => Milestone.resolve host m kind

def Platform.word : Platform → List Char
  | linux => "linux".toList
  | mac => "mac".toList
  | macArm => "mac_arm".toList
  | win32 => "win32".toList
  | win64 => "win64".toList

def Platform.folderName (platform : Platform) (build : BuildInfo) : List Char := platform.word ++ '-' :: build.id

/-- `with_extension`, for a name that does not begin with a dot: what follows the last dot is replaced. -/
def withExtension (name extension : List Char) : List Char :=
  match splitLast '.' name with
  | some (stem, _) => stem ++ '.' :: extension
  | none => name ++ '.' :: extension

/-- The name of the file that a build is downloaded to. -/
def archiveName (platform : Platform) (build : BuildInfo) : List Char :=
  withExtension (platform.folderName build) "zip".toList

/-! ### Numbers -/

theorem parseU32_number (n : UInt32) : parseU32 (number n) = some n := by
  have hparse := parseUsize_toDigits (Nat.lt_trans n.toNat_lt (by decide))
  rw [ParseState.parseUsize] at hparse
  cases hm : parseU64 (Nat.toDigits 10 n.toNat) with
  | none =>
    rw [hm] at hparse
    cases hparse
  | some m =>
    rw [hm] at hparse
    have hvalue : m.toNat = n.toNat := Except.ok.inj hparse
    have hsmall : m.toUInt32 = n := by
      apply UInt32.toNat_inj.1
      rw [UInt64.toNat_toUInt32, hvalue, Nat.mod_eq_of_lt n.toNat_lt]
    rw [parseU32, number, hm]
    dsimp only
    rw [hvalue, if_pos n.toNat_lt, hsmall]

theorem number_inj {n m : UInt32} (h : number n = number m) : n = m := by
  have hparse := parseU32_number n
  rw [h, parseU32_number] at hparse
  exact (Option.some.inj hparse).symm

theorem notMem_number (n : UInt32) {c : Char} (hc : c.isDigit = false) : c ∉ number n := by
  intro hmem
  rw [isDigit_toDigits n.toNat c hmem] at hc
  cases hc

theorem splitOn_number_cons (n : UInt32) {c : Char} (hc : c.isDigit = false) (rest : List Char) :
    (number n ++ c :: rest).splitOn c = number n :: rest.splitOn c :=
  List.splitOn_append_cons_self_of_not_mem (notMem_number n hc) rest

theorem splitOn_number (n : UInt32) {c : Char} (hc : c.isDigit = false) : (number n).splitOn c = [number n] :=
  List.splitOn_eq_singleton (notMem_number n hc)

theorem splitOn_display (v : Version) :
    v.display.splitOn '.' = [number v.major, number v.minor, number v.build, number v.patch] := by
  rw [Version.display, splitOn_number_cons _ rfl, splitOn_number_cons _ rfl, splitOn_number_cons _ rfl,
    splitOn_number _ rfl]

theorem number_head (n : UInt32) (rest : List Char) : ∃ c more, number n ++ rest = c :: more ∧ c.isDigit = true := by
  cases h : number n with
  | nil => exact absurd h Nat.toDigits_ne_nil
  | cons c more =>
    exact ⟨c, more ++ rest, rfl, isDigit_toDigits n.toNat c (by rw [← number, h]; exact List.mem_cons_self)⟩

/-! ### Reading what was written -/

theorem Channel.fromStr_display (c : Channel) : Channel.fromStr c.display = .ok c := by
  cases c <;> rfl

/-- A channel does not begin with a digit. -/
theorem Channel.fromStr_number (n : UInt32) (rest : List Char) :
    ∃ e, Channel.fromStr (number n ++ rest) = .error e := by
  obtain ⟨c, more, htext, hdigit⟩ := number_head n rest
  have hnone : ([canary, dev, beta, stable].find? fun channel =>
      number n ++ rest = channel.display ∨ number n ++ rest = channel.asKey) = none := by
    rw [List.find?_eq_none]
    intro channel _ hfound
    rw [htext, decide_eq_true_iff] at hfound
    revert hdigit
    cases channel <;> rcases hfound with h | h <;> cases h <;> decide
  exact ⟨.invalidChannel (number n ++ rest), by rw [Channel.fromStr, hnone]⟩

theorem Version.fromStr_display (v : Version) : Version.fromStr v.display = .ok v := by
  simp only [Version.fromStr, splitOn_display, parseU32_number]

theorem Version.fromStr_number (n : UInt32) : Version.fromStr (number n) = .error (.invalidVersion (number n)) := by
  rw [Version.fromStr, splitOn_number n rfl]

theorem Revision.fromStr_number (n : UInt32) : Revision.fromStr (number n) = .ok n := by
  rw [Revision.fromStr, parseU32_number]

namespace BrowserVersion

theorem fromStr_number (n : UInt32) : fromStr (number n) = .ok (revision n) := by
  obtain ⟨e, hchannel⟩ := Channel.fromStr_number n []
  rw [List.append_nil] at hchannel
  rw [fromStr, hchannel, Version.fromStr_number, Revision.fromStr_number]

theorem fromStr_display_read (v : BrowserVersion) : fromStr v.display = .ok v.read := by
  cases v with
  | channel c =>
    rw [display, fromStr, Channel.fromStr_display]
    rfl
  | revision r => exact fromStr_number r
  | version v =>
    obtain ⟨e, hchannel⟩ := Channel.fromStr_number v.major ('.' :: (number v.minor ++ '.' :: (number v.build ++ '.' :: number v.patch)))
    rw [display, fromStr, Version.display, hchannel, ← Version.display, Version.fromStr_display]
    rfl
  | milestone m => exact fromStr_number m

theorem read_of_fromStr {s : List Char} {v : BrowserVersion} (h : fromStr s = .ok v) : v.read = v := by
  rw [fromStr] at h
  split at h
  · cases h
    rfl
  · split at h
    · cases h
      rfl
    · split at h <;> cases h
      rfl

/-- A version is read back as what it is, but a milestone as a revision. Whatever a text is read as is written as a text that is read alike. -/
theorem reads_back :
    (∀ v : BrowserVersion, fromStr v.display = .ok v.read) ∧
      ∀ s : List Char, ((fromStr s).bind fun v => fromStr v.display) = fromStr s := by
  refine ⟨fromStr_display_read, fun s => ?_⟩
  cases h : fromStr s with
  | error e => rfl
  | ok v => exact (fromStr_display_read v).trans (congrArg Except.ok (read_of_fromStr h))

end BrowserVersion

/-! ### Builds -/

/-- A build is one of its kind: Chromium goes by the revision, the others by the version. -/
def BuildInfo.Suits (build : BuildInfo) : BrowserKind → Prop
  | .chromium => ∃ r, build = .ofRevision r
  | _ => build.version = some build.id

theorem ok_of_map {A B : Type} {result : Except VersionError A} {f : A → B} {b : B} (h : result.map f = .ok b) :
    ∃ a, b = f a := by
  cases result with
  | error e => cases h
  | ok a => exact ⟨a, (Except.ok.inj h).symm⟩

theorem suits_of_lookUp {table : Except String (List Char → Option HostVersion)} {key : List Char} {missing : VersionError}
    {build : BuildInfo} (h : lookUp table key missing = .ok build) : build.version = some build.id := by
  rw [lookUp.eq_def] at h
  split at h
  · cases h
  · split at h
    · obtain ⟨r, rfl⟩ := ok_of_map h
      rfl
    · cases h

theorem suits_of_channel {host : BrowserHost} {platform : Platform} {c : Channel} {kind : BrowserKind} {build : BuildInfo}
    (h : c.resolve host platform kind = .ok build) : build.Suits kind := by
  cases kind with
  | chromium =>
    cases c with
    | canary =>
      rw [Channel.resolve] at h
      split at h
      · cases h
      · exact ok_of_map h
    | _ => cases h
  | _ => cases c <;> exact suits_of_lookUp h

/-- Whatever the host answers, what a version is resolved to is a build of its kind. -/
theorem suits_of_resolve {host : BrowserHost} {kind : BrowserKind} {platform : Platform} {v : BrowserVersion}
    {build : BuildInfo} (h : v.resolve host kind platform = .ok build) : build.Suits kind := by
  cases v with
  | channel c => exact suits_of_channel h
  | revision r => cases kind <;> cases h; exact ⟨r, rfl⟩
  | version v => cases kind <;> cases h <;> rfl
  | milestone m =>
    cases kind with
    | chromium => cases h
    | chrome => exact suits_of_lookUp h
    | chromeHeadlessShell => exact suits_of_lookUp h

/-! ### Places -/

theorem word_append_inj {p q : Platform} {x y : List Char} (h : p.word ++ '-' :: x = q.word ++ '-' :: y) :
    p = q ∧ x = y := by
  cases p <;> cases q <;> simp_all [Platform.word]

/-- The numbers of a version that its archive is named by. -/
def Version.line (v : Version) : List Char := number v.major ++ '.' :: (number v.minor ++ '.' :: number v.build)

theorem display_eq_line (v : Version) : v.display = v.line ++ '.' :: number v.patch := by
  simp only [Version.display, Version.line, List.append_assoc, List.cons_append]

theorem line_inj {v w : Version} (h : v.line = w.line) : v.major = w.major ∧ v.minor = w.minor ∧ v.build = w.build := by
  have hsplit := congrArg (List.splitOn '.') h
  simp only [Version.line, splitOn_number_cons _ (rfl : '.'.isDigit = false), splitOn_number _ (rfl : '.'.isDigit = false),
    List.cons.injEq] at hsplit
  exact ⟨number_inj hsplit.1, number_inj hsplit.2.1, number_inj hsplit.2.2.1⟩

theorem display_inj {v w : Version} (h : v.display = w.display) : v = w := by
  have hread := Version.fromStr_display v
  rw [h, Version.fromStr_display] at hread
  exact (Except.ok.inj hread).symm

theorem archiveName_of_version (p : Platform) (v : Version) :
    archiveName p (.ofVersion v.display) = p.word ++ '-' :: (v.line ++ ".zip".toList) := by
  have hname : p.folderName (.ofVersion v.display) = (p.word ++ '-' :: v.line) ++ '.' :: number v.patch := by
    rw [Platform.folderName, BuildInfo.ofVersion, display_eq_line, List.append_assoc, List.cons_append]
  rw [archiveName, withExtension, hname, splitLast_append_cons _ (notMem_number v.patch rfl)]
  dsimp only
  rw [List.append_assoc, List.cons_append]
  rfl

/-- Two versions never share a folder, but they share the file that they are downloaded to if they differ in their last number only. -/
theorem paths_of_versions (p q : Platform) (v w : Version) :
    (p.folderName (.ofVersion v.display) = q.folderName (.ofVersion w.display) ↔ p = q ∧ v = w) ∧
      (archiveName p (.ofVersion v.display) = archiveName q (.ofVersion w.display) ↔
        p = q ∧ v.major = w.major ∧ v.minor = w.minor ∧ v.build = w.build) := by
  constructor
  · constructor
    · intro h
      obtain ⟨hplatform, hid⟩ := word_append_inj h
      exact ⟨hplatform, display_inj hid⟩
    · rintro ⟨rfl, rfl⟩
      rfl
  · rw [archiveName_of_version, archiveName_of_version]
    constructor
    · intro h
      obtain ⟨hplatform, hline⟩ := word_append_inj h
      exact ⟨hplatform, line_inj (List.append_cancel_right hline)⟩
    · rintro ⟨rfl, hmajor, hminor, hbuild⟩
      rw [Version.line, Version.line, hmajor, hminor, hbuild]

end SpiderChrome.Fetcher
