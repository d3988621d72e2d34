import Aquatic.AutoBan.ClientBans
import Aquatic.Common.IpBan
import Aquatic.Lib.Transition

/-!
# Rewriting the client ban file

The workers append lines under the write lock. The flush thread rewrites the file
once a day without the lock: it reads the file, writes what is left to a new one
and renames that over the original. A line that is appended in between, and one
that goes to the original after it has been replaced, are lost.
-/

namespace Aquatic

/-- The order of `IpAddr`. -/
def IpAddr.le : IpAddr → IpAddr → Bool
  | .v4 a, .v4 b => a.toBits ≤ b.toBits
  | .v4 _, .v6 _ => true
  | .v6 _, .v4 _ => false
  | .v6 a, .v6 b => a.toBits ≤ b.toBits

end Aquatic

namespace Aquatic.AutoBan
open Collections Transition
set_option autoImplicit false

/-- The lines that `cleanup_client_bans` writes, below a comment. -/
def cleanedLines (content : List ClientBanLine) (nowUnix : UInt64) : List ClientBanLine :=
  let kept := (parseClientBanLines content nowUnix).entries.mergeSort fun a b => a.1.le b.1
  .skipped :: kept.map fun e => .ban e.1 e.2

/-- Where a worker is in `persist_client_ban`. -/
inductive Appender where
  | idle
  | waiting (ip : IpAddr) (expire : UInt64)
  /-- It has the write lock and has opened the file. -/
  | opened (ip : IpAddr) (expire : UInt64) (file : Nat)
  deriving DecidableEq, Repr

/-- Where the flush thread is in `cleanup_client_bans`. -/
inductive Cleanup where
  | idle
  | read (content : List ClientBanLine)
  | written (content : List ClientBanLine) (tmp : Nat)
  deriving DecidableEq, Repr

/-- The files, which one the path names, and the threads. `appended` are the lines
that the file had at first and all that were appended since, and `latestUnix` is
the latest time so far: the clock may be set back. -/
structure ClientBanFile where
  contents : Nat → List ClientBanLine
  path : Nat
  files : Nat
  writeLock : Bool
  workers : Nat → Appender
  cleanup : Cleanup
  nowUnix : UInt64
  latestUnix : UInt64
  appended : List ClientBanLine

namespace ClientBanFile

inductive Action where
  | persistClientBan (worker : Nat) (ip : IpAddr) (expire : UInt64)
  | continueWorker (worker : Nat)
  | continueCleanup
  | tick (nowUnix : UInt64)

def init (content : List ClientBanLine) (nowUnix : UInt64) : ClientBanFile where
  contents := fun file => if file = 0 then content else []
  path := 0
  files := 1
  writeLock := false
  workers := fun _ => .idle
  cleanup := .idle
  nowUnix := nowUnix
  latestUnix := nowUnix
  appended := content

def content (s : ClientBanFile) : List ClientBanLine := s.contents s.path

def setWorker (s : ClientBanFile) (worker : Nat) (state : Appender) : ClientBanFile :=
  { s with workers := fun w => if w = worker then state else s.workers w }

def write (s : ClientBanFile) (file : Nat) (lines : List ClientBanLine) : ClientBanFile :=
  { s with contents := fun f => if f = file then lines else s.contents f }

def continueWorker (s : ClientBanFile) (worker : Nat) : Option ClientBanFile :=
  match s.workers worker with
  | .idle => none
  | .waiting ip expire =>
    if s.writeLock then none
    else some ({ s with writeLock := true }.setWorker worker (.opened ip expire s.path))
  | .opened ip expire file =>
    some { (s.write file (s.contents file ++ [.ban ip expire])).setWorker worker .idle with
      writeLock := false
      appended := s.appended ++ [.ban ip expire] }

def continueCleanup (s : ClientBanFile) : ClientBanFile :=
  match s.cleanup with
  | .idle => { s with cleanup := .read s.content }
  | .read content =>
    { s.write s.files (cleanedLines content s.nowUnix) with
      files := s.files + 1
      cleanup := .written content s.files }
  | .written _ tmp => { s with path := tmp, cleanup := .idle }

def step (s : ClientBanFile) : Action → Option ClientBanFile
  | .persistClientBan worker ip expire =>
    if s.workers worker = .idle then some (s.setWorker worker (.waiting ip expire)) else none
  | .continueWorker worker => s.continueWorker worker
  | .continueCleanup => some s.continueCleanup
  | .tick nowUnix =>
    some { s with
      nowUnix
      latestUnix := if s.latestUnix < nowUnix then nowUnix else s.latestUnix }

/-- The file has the latest of the lines appended for every address whose ban has
not expired. -/
def Keeps (s : ClientBanFile) : Prop :=
  ∀ ip expire, latestExpiry s.appended s.latestUnix ip = some expire →
    .ban ip expire ∈ s.content

/-- A line that is not needed beside others: its ban has expired, or it does not
end later than another one of the address. -/
def Needless (s : ClientBanFile) (lines : List ClientBanLine) (line : ClientBanLine) : Prop :=
  ∀ ip expire, line = .ban ip expire → s.latestUnix < expire →
    ∃ expire', expire ≤ expire' ∧ .ban ip expire' ∈ lines

/-- No line that is needed is appended between the reading of the file and its
replacement, or to a file that has been replaced after it was opened. -/
def Undisturbed (s : ClientBanFile) (act : Action) (_ : ClientBanFile) : Prop :=
  match act with
  | .continueCleanup => match s.cleanup with
    | .written content _ => ∀ line ∈ s.content.drop content.length, s.Needless content line
    | _ => True
  | .continueWorker worker => match s.workers worker with
    | .opened ip expire file => file = s.path ∨ s.Needless s.content (.ban ip expire)
    | _ => True
  | _ => True

/-- Where the flush thread is: what it has read is still at the front of the file,
and what it has written is in a file that nobody else knows of. -/
def CleanupOk (s : ClientBanFile) : Cleanup → Prop
  | .idle => True
  | .read content => content <+: s.content
  | .written content tmp => content <+: s.content ∧ tmp < s.files ∧ tmp ≠ s.path ∧
      (∀ worker ip expire, s.workers worker ≠ .opened ip expire tmp) ∧
      ∃ nowUnix, nowUnix ≤ s.latestUnix ∧ s.contents tmp = cleanedLines content nowUnix

structure Sound (s : ClientBanFile) : Prop where
  path : s.path < s.files
  opened : ∀ {worker ip expire file}, s.workers worker = .opened ip expire file → file < s.files
  cleanup : s.CleanupOk s.cleanup
  clock : s.nowUnix ≤ s.latestUnix
  appended : ∀ {ip expire}, .ban ip expire ∈ s.content → .ban ip expire ∈ s.appended

theorem mem_cleanedLines {content : List ClientBanLine} {nowUnix : UInt64} {ip : IpAddr}
    {expire : UInt64} : .ban ip expire ∈ cleanedLines content nowUnix ↔
      latestExpiry content nowUnix ip = some expire := by
  rw [← get_parseClientBanLines, IndexMap.get_eq_some_iff]
  unfold cleanedLines
  constructor
  · intro h
    rcases List.mem_cons.mp h with h | h
    · cases h
    · obtain ⟨e, he, heq⟩ := List.mem_map.mp h
      cases heq
      exact List.mem_mergeSort.mp he
  · intro h
    exact List.mem_cons_of_mem _ (List.mem_map.mpr ⟨_, List.mem_mergeSort.mpr h, rfl⟩)

variable {s s' : ClientBanFile}

theorem sound_init (content : List ClientBanLine) (nowUnix : UInt64) :
    Sound (init content nowUnix) :=
  ⟨Nat.zero_lt_one, nofun, trivial, UInt64.le_refl _, id⟩

/-- What the other threads do while the flush thread is in between. -/
structure Beside (s s' : ClientBanFile) : Prop where
  path : s'.path = s.path
  files : s'.files = s.files
  cleanup : s'.cleanup = s.cleanup
  content : s.content <+: s'.content
  others : ∀ {file}, file ≠ s.path →
    (∀ worker ip expire, s.workers worker ≠ .opened ip expire file) →
    s'.contents file = s.contents file
  opened : ∀ {worker ip expire file}, s'.workers worker = .opened ip expire file →
    file = s.path ∨ s.workers worker = .opened ip expire file
  latestUnix : s.latestUnix ≤ s'.latestUnix

theorem Sound.beside (hs : Sound s) (h : Beside s s') (hclock : s'.nowUnix ≤ s'.latestUnix)
    (happended : ∀ {ip expire}, .ban ip expire ∈ s'.content → .ban ip expire ∈ s'.appended) :
    Sound s' := by
  refine ⟨?_, ?_, ?_, hclock, happended⟩
  · rw [h.path, h.files]
    exact hs.path
  · intro worker ip expire file hopened
    rw [h.files]
    rcases h.opened hopened with rfl | hopened
    · exact hs.path
    · exact hs.opened hopened
  · rw [h.cleanup]
    have hcleanup := hs.cleanup
    cases hstate : s.cleanup with
    | idle => trivial
    | read content =>
      rw [hstate] at hcleanup
      exact hcleanup.trans h.content
    | written content tmp =>
      rw [hstate] at hcleanup
      obtain ⟨hfront, hfile, hpath, hworkers, nowUnix, hle, hcontents⟩ := hcleanup
      refine ⟨hfront.trans h.content, h.files ▸ hfile, h.path ▸ hpath, ?_, nowUnix,
        UInt64.le_trans hle h.latestUnix, (h.others hpath hworkers).trans hcontents⟩
      intro worker ip expire hopened
      rcases h.opened hopened with hfile | hopened
      · exact hpath hfile
      · exact hworkers worker ip expire hopened

theorem opened_setWorker {worker worker' : Nat} {state : Appender} {ip : IpAddr} {expire : UInt64}
    {file : Nat} (h : (s.setWorker worker state).workers worker' = .opened ip expire file) :
    state = .opened ip expire file ∨ s.workers worker' = .opened ip expire file := by
  simp only [setWorker] at h
  split at h
  · exact .inl h
  · exact .inr h

theorem sound_persistClientBan (hs : Sound s) (worker : Nat) (ip : IpAddr) (expire : UInt64) :
    Sound (s.setWorker worker (.waiting ip expire)) := by
  refine hs.beside ⟨rfl, rfl, rfl, List.prefix_rfl, fun _ _ => rfl, ?_, UInt64.le_refl _⟩
    hs.clock hs.appended
  intro worker' ip' expire' file hopened
  rcases opened_setWorker hopened with hopened | hopened
  · cases hopened
  · exact .inr hopened

theorem content_write_self (s : ClientBanFile) (lines : List ClientBanLine) :
    (s.write s.path lines).content = lines := if_pos rfl

theorem content_write_other {file : Nat} (h : file ≠ s.path) (lines : List ClientBanLine) :
    (s.write file lines).content = s.content := if_neg (Ne.symm h)

theorem sound_continueWorker (hs : Sound s) {worker : Nat}
    (h : s.continueWorker worker = some s') : Sound s' := by
  unfold continueWorker at h
  cases hworker : s.workers worker with
  | idle =>
    rw [hworker] at h
    cases h
  | waiting ip expire =>
    rw [hworker] at h
    simp only at h
    split at h
    · cases h
    cases h
    refine hs.beside ⟨rfl, rfl, rfl, List.prefix_rfl, fun _ _ => rfl, ?_, UInt64.le_refl _⟩
      hs.clock hs.appended
    intro worker' ip' expire' file hopened
    rcases opened_setWorker hopened with hopened | hopened
    · cases hopened
      exact .inl rfl
    · exact .inr hopened
  | opened ip expire file =>
    rw [hworker] at h
    cases h
    refine hs.beside ⟨rfl, rfl, rfl, ?_, ?_, ?_, UInt64.le_refl _⟩ hs.clock ?_
    · by_cases hfile : file = s.path
      · subst hfile
        exact (content_write_self s _).symm ▸ List.prefix_append _ _
      · exact (content_write_other hfile _).symm ▸ List.prefix_rfl
    · intro file' _ hother
      have hne : file' ≠ file := by
        rintro rfl
        exact hother worker ip expire hworker
      exact if_neg hne
    · intro worker' ip' expire' file' hopened
      rcases opened_setWorker hopened with hopened | hopened
      · cases hopened
      · exact .inr hopened
    · intro ip' expire' hmem
      apply List.mem_append.mpr
      by_cases hfile : file = s.path
      · subst hfile
        have hcontent : (s.write s.path (s.contents s.path ++ [.ban ip expire])).content =
          s.content ++ [.ban ip expire] := content_write_self s _
        have hmem' : ClientBanLine.ban ip' expire' ∈ s.content ++ [.ban ip expire] := by
          rw [← hcontent]
          exact hmem
        exact (List.mem_append.mp hmem').imp_left hs.appended
      · exact .inl (hs.appended (content_write_other hfile _ ▸ hmem))

theorem sound_continueCleanup (hs : Sound s) : Sound s.continueCleanup := by
  have hcleanup := hs.cleanup
  unfold continueCleanup
  cases hstate : s.cleanup with
  | idle => exact ⟨hs.path, hs.opened, List.prefix_rfl, hs.clock, hs.appended⟩
  | read content =>
    rw [hstate] at hcleanup
    have hfile : s.files ≠ s.path := (Nat.ne_of_lt hs.path).symm
    refine ⟨Nat.lt_succ_of_lt hs.path, fun hopened => Nat.lt_succ_of_lt (hs.opened hopened),
      ⟨?_, Nat.lt_succ_self _, hfile, ?_, s.nowUnix, hs.clock, if_pos rfl⟩, hs.clock, ?_⟩
    · exact (content_write_other hfile _).symm ▸ hcleanup
    · intro worker ip expire hopened
      exact Nat.lt_irrefl _ (hs.opened hopened)
    · intro ip expire hmem
      exact hs.appended (content_write_other hfile _ ▸ hmem)
  | written content tmp =>
    rw [hstate] at hcleanup
    obtain ⟨hfront, hfile, -, -, nowUnix, -, hcontents⟩ := hcleanup
    refine ⟨hfile, hs.opened, trivial, hs.clock, ?_⟩
    intro ip expire hmem
    have hmem' : ClientBanLine.ban ip expire ∈ cleanedLines content nowUnix := hcontents ▸ hmem
    exact hs.appended (hfront.mem (mem_of_latestExpiry (mem_cleanedLines.mp hmem')).1)

theorem le_ite (a b : UInt64) : a ≤ (if a < b then b else a) ∧ b ≤ if a < b then b else a := by
  split
  · rename_i h
    exact ⟨UInt64.le_of_lt h, UInt64.le_refl _⟩
  · rename_i h
    exact ⟨UInt64.le_refl _, UInt64.not_lt.mp h⟩

theorem sound_step {act : Action} (hs : Sound s) (h : step s act = some s') : Sound s' := by
  cases act with
  | persistClientBan worker ip expire =>
    simp only [step] at h
    split at h
    · cases h
      exact sound_persistClientBan hs worker ip expire
    · cases h
  | continueWorker worker => exact sound_continueWorker hs h
  | continueCleanup =>
    cases h
    exact sound_continueCleanup hs
  | tick nowUnix =>
    cases h
    obtain ⟨hle, hle'⟩ := le_ite s.latestUnix nowUnix
    exact hs.beside ⟨rfl, rfl, rfl, List.prefix_rfl, fun _ _ => rfl, .inr, hle⟩ hle' hs.appended

theorem latestExpiry_of_subset {lines lines' : List ClientBanLine} {nowUnix : UInt64} {ip : IpAddr}
    {expire : UInt64} (hsub : ∀ expire', .ban ip expire' ∈ lines → .ban ip expire' ∈ lines')
    (h : latestExpiry lines' nowUnix ip = some expire) (hmem : .ban ip expire ∈ lines) :
    latestExpiry lines nowUnix ip = some expire := by
  obtain ⟨⟨-, hlive⟩, hbound⟩ := latestExpiry_eq_some_iff.mp h
  exact latestExpiry_eq_some_iff.mpr
    ⟨⟨hmem, hlive⟩, fun expire' hmem' => hbound expire' (hsub expire' hmem')⟩

/-- What is the latest expiry has been the latest since its line was there. -/
theorem latestExpiry_earlier {lines : List ClientBanLine} {nowUnix earlier : UInt64} {ip : IpAddr}
    {expire : UInt64} (hle : earlier ≤ nowUnix) (h : latestExpiry lines nowUnix ip = some expire) :
    latestExpiry lines earlier ip = some expire := by
  obtain ⟨⟨hmem, hlive⟩, hbound⟩ := latestExpiry_eq_some_iff.mp h
  refine latestExpiry_eq_some_iff.mpr ⟨⟨hmem, UInt64.lt_of_le_of_lt hle hlive⟩, ?_⟩
  intro expire' hmem' _
  by_cases hlive' : nowUnix < expire'
  · exact hbound expire' hmem' hlive'
  · exact UInt64.le_trans (UInt64.not_lt.mp hlive') (UInt64.le_of_lt hlive)

theorem keeps_of_same (hk : Keeps s) (happended : s'.appended = s.appended)
    (hcontent : s'.content = s.content) (hle : s.latestUnix ≤ s'.latestUnix) : Keeps s' := by
  intro ip expire h
  rw [happended] at h
  rw [hcontent]
  exact hk ip expire (latestExpiry_earlier hle h)

theorem keeps_append (hs : Sound s) (hk : Keeps s) {worker : Nat} {ip : IpAddr} {expire : UInt64}
    {file : Nat} (hworker : s.workers worker = .opened ip expire file)
    (h : s.continueWorker worker = some s') :
    (file = s.path ∨ s.Needless s.content (.ban ip expire)) ↔ Keeps s' := by
  simp only [continueWorker, hworker, Option.some.injEq] at h
  subst h
  have hold : ∀ {ip' expire'}, latestExpiry (s.appended ++ [.ban ip expire]) s.latestUnix ip' =
      some expire' → .ban ip' expire' ∈ s.appended → .ban ip' expire' ∈ s.content := by
    intro ip' expire' hlatest hmem
    exact hk _ _ (latestExpiry_of_subset (fun _ => List.mem_append_left _) hlatest hmem)
  by_cases hfile : file = s.path
  · subst hfile
    have hcontent : (s.write s.path (s.contents s.path ++ [.ban ip expire])).content =
      s.content ++ [.ban ip expire] := content_write_self s _
    refine iff_of_true (.inl rfl) ?_
    intro ip' expire' hlatest
    change _ ∈ (s.write s.path (s.contents s.path ++ [.ban ip expire])).content
    rw [hcontent]
    rcases List.mem_append.mp (mem_of_latestExpiry hlatest).1 with hmem | hmem
    · exact List.mem_append_left _ (hold hlatest hmem)
    · exact List.mem_append_right _ hmem
  · have hcontent : (s.write file (s.contents file ++ [.ban ip expire])).content = s.content :=
      content_write_other hfile _
    constructor
    · intro hneedless ip' expire' hlatest
      change _ ∈ (s.write file (s.contents file ++ [.ban ip expire])).content
      rw [hcontent]
      obtain ⟨⟨hmem, hlive⟩, hbound⟩ := latestExpiry_eq_some_iff.mp hlatest
      rcases List.mem_append.mp hmem with hmem | hmem
      · exact hold hlatest hmem
      · obtain ⟨later, hle, hlater⟩ :=
          hneedless.resolve_left hfile ip' expire' (List.mem_singleton.mp hmem).symm hlive
        have hge := hbound later (List.mem_append_left _ (hs.appended hlater))
          (UInt64.lt_of_lt_of_le hlive hle)
        rw [UInt64.le_antisymm hle hge]
        exact hlater
    · intro hkeeps
      right
      intro ip' expire' heq hlive
      cases heq
      have hlast : .ban ip expire ∈ s.appended ++ [.ban ip expire] := List.mem_concat_self
      obtain ⟨latest, hlatest, hle⟩ := le_latestExpiry hlast hlive
      have hmem := hkeeps ip latest hlatest
      exact ⟨latest, hle, hcontent ▸ hmem⟩

theorem keeps_rename (hs : Sound s) (hk : Keeps s) {content : List ClientBanLine} {tmp : Nat}
    (hcleanup : s.cleanup = .written content tmp) :
    (∀ line ∈ s.content.drop content.length, s.Needless content line) ↔
      Keeps s.continueCleanup := by
  have hok := hs.cleanup
  rw [hcleanup] at hok
  obtain ⟨⟨more, hmore⟩, -, -, -, nowUnix, hle, hcontents⟩ := hok
  have hdrop : s.content.drop content.length = more := by rw [← hmore, List.drop_left]
  have hread : ∀ {ip expire}, .ban ip expire ∈ content → .ban ip expire ∈ s.appended :=
    fun hmem => hs.appended (hmore ▸ List.mem_append_left more hmem)
  have hnew : s.continueCleanup.content = cleanedLines content nowUnix := by
    simp only [continueCleanup, hcleanup]
    exact hcontents
  rw [hdrop]
  constructor
  · intro hneedless ip expire hlatest
    simp only [continueCleanup, hcleanup] at hlatest
    obtain ⟨⟨-, hlive⟩, hbound⟩ := latestExpiry_eq_some_iff.mp hlatest
    have hmem : .ban ip expire ∈ content := by
      have hmem := hk ip expire hlatest
      rw [← hmore] at hmem
      rcases List.mem_append.mp hmem with hmem | hmem
      · exact hmem
      · obtain ⟨later, hlater, hmem⟩ := hneedless _ hmem ip expire rfl hlive
        rw [UInt64.le_antisymm hlater
          (hbound later (hread hmem) (UInt64.lt_of_lt_of_le hlive hlater))]
        exact hmem
    rw [hnew, mem_cleanedLines]
    exact latestExpiry_earlier hle (latestExpiry_of_subset (fun _ => hread) hlatest hmem)
  · rintro hkeeps line hmem ip expire rfl hlive
    have happended : .ban ip expire ∈ s.appended :=
      hs.appended (hmore ▸ List.mem_append_right content hmem)
    obtain ⟨latest, hlatest, hge⟩ := le_latestExpiry happended hlive
    have hkept := hkeeps ip latest (by simpa only [continueCleanup, hcleanup] using hlatest)
    rw [hnew, mem_cleanedLines] at hkept
    exact ⟨latest, hge, (mem_of_latestExpiry hkept).1⟩

theorem keeps_iff_step {act : Action} (hs : Sound s) (hk : Keeps s) (h : step s act = some s') :
    Undisturbed s act s' ↔ Keeps s' := by
  cases act with
  | persistClientBan worker ip expire =>
    simp only [step] at h
    split at h
    · cases h
      exact iff_of_true trivial (keeps_of_same hk rfl rfl (UInt64.le_refl _))
    · cases h
  | continueWorker worker =>
    simp only [Undisturbed]
    cases hworker : s.workers worker with
    | idle =>
      simp only [step, continueWorker, hworker] at h
      cases h
    | waiting ip expire =>
      simp only [step, continueWorker, hworker] at h
      split at h
      · cases h
      · cases h
        exact iff_of_true trivial (keeps_of_same hk rfl rfl (UInt64.le_refl _))
    | opened ip expire file => exact keeps_append hs hk hworker h
  | continueCleanup =>
    cases h
    simp only [Undisturbed]
    cases hcleanup : s.cleanup with
    | idle =>
      refine iff_of_true trivial ?_
      simp only [continueCleanup, hcleanup]
      exact keeps_of_same hk rfl rfl (UInt64.le_refl _)
    | read content =>
      refine iff_of_true trivial ?_
      simp only [continueCleanup, hcleanup]
      have hfile : s.files ≠ s.path := (Nat.ne_of_lt hs.path).symm
      exact keeps_of_same hk rfl (content_write_other hfile _) (UInt64.le_refl _)
    | written content tmp => exact keeps_rename hs hk hcleanup
  | tick nowUnix =>
    cases h
    exact iff_of_true trivial (keeps_of_same hk rfl rfl (le_ite s.latestUnix nowUnix).1)

/-- Nothing has been lost. -/
structure Intact (s : ClientBanFile) : Prop where
  sound : Sound s
  keeps : Keeps s

theorem intact_init (content : List ClientBanLine) (nowUnix : UInt64) :
    Intact (init content nowUnix) :=
  ⟨sound_init content nowUnix, fun _ _ h => (mem_of_latestExpiry h).1⟩

theorem intact_step {act : Action} (hs : Intact s) (h : step s act = some s')
    (hundisturbed : Undisturbed s act s') : Intact s' :=
  ⟨sound_step hs.sound h, (keeps_iff_step hs.sound hs.keeps h).mp hundisturbed⟩

/-- The file keeps every ban exactly in the runs in which no needed line is appended
while it is being replaced. -/
theorem client_bans_kept_iff (content : List ClientBanLine) (nowUnix : UInt64)
    (as : List Action) :
    AllSteps step Undisturbed (init content nowUnix) as ↔
      AllSteps step (fun _ _ s' => Keeps s') (init content nowUnix) as :=
  allSteps_iff intact_step (fun hs h => keeps_iff_step hs.sound hs.keeps h)
    (intact_init content nowUnix) as

/-- A worker appends a ban after the flush thread has read the file. -/
def appendWhileCleaning (ip : IpAddr) (expire : UInt64) : List Action :=
  [.continueCleanup, .persistClientBan 0 ip expire, .continueWorker 0, .continueWorker 0,
    .continueCleanup]

theorem appended_ban_lost :
    ¬ AllSteps step (fun _ _ s' => Keeps s') (init [.skipped] 1000)
      (appendWhileCleaning (.v4 ⟨#v[192, 0, 2, 1]⟩) 87400 ++ [.continueCleanup]) := by
  intro h
  have hkeeps := h.last rfl rfl
  have hmem := hkeeps (.v4 ⟨#v[192, 0, 2, 1]⟩) 87400 (by decide)
  exact absurd (mem_cleanedLines.mp hmem) (by decide)

end ClientBanFile

end Aquatic.AutoBan
