import Mathlib.Data.List.Nodup
import Mathlib.Data.String.Basic
import NaiveRtc.Lib.Machine
import NaiveRtc.Lib.Ordered
import NaiveRtc.Sdp.Media

/-!
# SDP descriptions

`rtc/sdp/sdp_description.cpp`: a description keeps its medias in a vector, its application in a
pointer, and both once more in a map from mids to weak pointers, from which the SDP is generated.

* `MediaEntry`, `Description` — entries have an identity, which the weak pointers refer to.
* `Consistent` — the SDP is generated and has the mids of the entries, each once, and `hasMid`
  knows them.
* `Keeps` — what an operation must find; `alive_step_iff`, `written_step_iff`, `consistent_iff` —
  **a description stays consistent exactly as long as** every operation finds it.

What is generated for the session and inside of an entry is left out, but not that it may throw.
-/

namespace NaiveRtc.Sdp

open Ordered

/-- `MediaEntry::Kind`. -/
inductive Kind
  | audio
  | video
  | application
  deriving DecidableEq

/-- A media or an application, with the identity of the object. -/
structure MediaEntry (Mid : Type) where
  id : Nat
  kind : Kind
  mid : Mid
  deriving DecidableEq

/-- The `m=` sections and the `BUNDLE` line, if there is one. -/
structure SdpText (Mid : Type) where
  bundle : Option (List Mid)
  sections : List (MediaEntry Mid)
  deriving DecidableEq

/-- `Description`; objects that are made get new identities, and `contents` are the medias under
these, less what `Hint` copies into them. -/
structure Description (Mid : Type) where
  medias : List (MediaEntry Mid) := []
  application : Option (MediaEntry Mid) := none
  mediaEntries : List (Mid × MediaEntry Mid) := []
  nextId : Nat := 0
  contents : Nat → Media := fun _ => { mid := [] }

namespace Description

variable {Mid : Type} [LinearOrder Mid]

/-- `media_entries_.emplace(mid, entry)`: nothing happens when the mid is there. -/
def emplace (mid : Mid) (entry : MediaEntry Mid) (entries : List (Mid × MediaEntry Mid)) :
    List (Mid × MediaEntry Mid) :=
  insertBy (fun a b => decide (a < b)) Prod.fst (mid, entry) entries

/-- `AddMedia(media)`, for `AddAudio` and `AddVideo` as well, which make a media without RTP
maps. -/
def addMedia (d : Description Mid) (video : Bool) (mid : Mid) (content : Media) :
    Description Mid :=
  let media : MediaEntry Mid := ⟨d.nextId, if video then .video else .audio, mid⟩
  { d with
    medias := d.medias ++ [media]
    mediaEntries := emplace mid media d.mediaEntries
    nextId := d.nextId + 1
    contents := Function.update d.contents d.nextId content }

/-- A media is changed by whoever has the pointer that `AddMedia` or `media(mid)` returned, to add
RTP maps and SSRCs to it for example. -/
def changeMedia (d : Description Mid) (id : Nat) (content : Media) : Description Mid :=
  { d with contents := Function.update d.contents id content }

/-- `RemoveMedia(mid)`. -/
def removeMedia (d : Description Mid) (mid : Mid) : Description Mid :=
  { d with medias := d.medias.filter fun media => media.mid ≠ mid }

/-- `SetApplication(app)`. -/
def setApplication (d : Description Mid) (mid : Mid) : Description Mid :=
  let app : MediaEntry Mid := ⟨d.nextId, .application, mid⟩
  { d with
    application := some app
    mediaEntries := emplace mid app d.mediaEntries
    nextId := d.nextId + 1 }

/-- `HasMid(mid)`. -/
def hasMid (d : Description Mid) (mid : Mid) : Bool :=
  if d.medias = [] then false
  else if d.medias.any fun media => media.mid = mid then true
  else
    match d.application with
    | some app => app.mid = mid
    | none => false

/-- The object of a weak pointer is there. -/
def alive (d : Description Mid) (entry : MediaEntry Mid) : Bool :=
  entry ∈ d.medias ∨ d.application = some entry

/-- `GenerateSDP` of an entry returns, as that of an application always does. -/
def writes (d : Description Mid) (entry : MediaEntry Mid) : Bool :=
  entry.kind = .application || (d.contents entry.id).writes

/-- `GenerateSDP(eol, application_only)`; `none` is an exception. -/
def generateSDP (d : Description Mid) (applicationOnly : Bool) : Option (SdpText Mid) :=
  let sections := (d.mediaEntries.map Prod.snd).filter fun entry =>
    d.alive entry && !(applicationOnly && entry.kind ≠ .application)
  if sections.all d.writes then
    some ⟨if applicationOnly then none else some (d.mediaEntries.map Prod.fst), sections⟩
  else none

/-- The mids of the medias and the application. -/
def mids (d : Description Mid) : List Mid :=
  d.medias.map MediaEntry.mid ++ (d.application.map MediaEntry.mid).toList

/-- **The mids of the entries**, each once. -/
def Lists (d : Description Mid) (listed : List Mid) : Prop :=
  listed.Nodup ∧ ∀ mid, mid ∈ listed ↔ mid ∈ d.mids

/-- **The SDP is generated and has the mids of the entries**, each once, and `HasMid` knows
them. -/
structure Consistent (d : Description Mid) : Prop where
  text : ∃ text listed, d.generateSDP false = some text ∧ text.bundle = some listed ∧
    d.Lists listed ∧ d.Lists (text.sections.map MediaEntry.mid)
  hasMid : ∀ mid, d.hasMid mid = true ↔ mid ∈ d.mids

end Description

/-- A call of a mutator, or a change of a media. -/
inductive DescriptionOp (Mid : Type)
  | addMedia (video : Bool) (mid : Mid) (content : Media)
  | changeMedia (id : Nat) (content : Media)
  | removeMedia (mid : Mid)
  | setApplication (mid : Mid)
  deriving DecidableEq

/-- A description that is changed. -/
def descriptionMachine (Mid : Type) [LinearOrder Mid] :
    Machine (Description Mid) (DescriptionOp Mid) Unit where
  step d
    | .addMedia video mid content => (d.addMedia video mid content, ())
    | .changeMedia id content => (d.changeMedia id content, ())
    | .removeMedia mid => (d.removeMedia mid, ())
    | .setApplication mid => (d.setApplication mid, ())

namespace Description

variable {Mid : Type} [LinearOrder Mid]

/-- **What an operation must find** for the entries.  A mid that is removed must be listed for the
application, if at all, and another media must be left next to an application.  An application must
come after a media, and the one it replaces must not be listed. -/
def KeepsEntries (d : Description Mid) : DescriptionOp Mid → Prop
  | .addMedia _ _ _ => True
  | .changeMedia _ _ => True
  | .removeMedia mid =>
    (∀ x ∈ d.mediaEntries, x.1 = mid → d.application = some x.2) ∧
      ((∀ media ∈ d.medias, media.mid = mid) → d.application = none)
  | .setApplication _ => d.medias ≠ [] ∧ ∀ x ∈ d.mediaEntries, d.application ≠ some x.2

/-- **What it must find** for the text: a media that is added or changed can be written, unless
another entry is listed for its mid. -/
def KeepsText (d : Description Mid) : DescriptionOp Mid → Prop
  | .addMedia _ mid content => content.writes = true ∨ ∃ x ∈ d.mediaEntries, x.1 = mid
  | .changeMedia id content =>
    content.writes = true ∨ ∀ x ∈ d.mediaEntries, x.2.id = id → x.2.kind = .application
  | .removeMedia _ => True
  | .setApplication _ => True

/-- What an operation must find. -/
def Keeps (d : Description Mid) (op : DescriptionOp Mid) : Prop :=
    d.KeepsEntries op ∧ d.KeepsText op

/-- What holds of every description, consistent or not. -/
structure WellFormed (d : Description Mid) : Prop where
  ranked : Ranked (fun x : Mid × MediaEntry Mid => x.1) d.mediaEntries
  keys : ∀ x ∈ d.mediaEntries, x.2.mid = x.1 ∧ x.2.id < d.nextId
  medias : ∀ media ∈ d.medias, media.id < d.nextId ∧ media.kind ≠ .application
  application : ∀ app, d.application = some app → app.id < d.nextId ∧ app.kind = .application
  listed : ∀ mid ∈ d.mids, ∃ x ∈ d.mediaEntries, x.1 = mid

/-- All weak pointers are alive, and an application is not alone. -/
structure Alive (d : Description Mid) : Prop where
  entries : ∀ x ∈ d.mediaEntries, x.2 ∈ d.medias ∨ d.application = some x.2
  medias : d.medias = [] → d.application = none

/-- All entries that are listed can be written. -/
def Written (d : Description Mid) : Prop := ∀ x ∈ d.mediaEntries, d.writes x.2 = true

omit [LinearOrder Mid] in
theorem mem_mids {d : Description Mid} {mid : Mid} :
    mid ∈ d.mids ↔ (∃ media ∈ d.medias, media.mid = mid) ∨
      ∃ app, d.application = some app ∧ app.mid = mid := by
  unfold mids
  rw [List.mem_append, List.mem_map]
  cases d.application <;> simp [eq_comm]

variable {entry : MediaEntry Mid}

theorem alive_iff {d : Description Mid} :
    d.alive entry = true ↔ entry ∈ d.medias ∨ d.application = some entry :=
  decide_eq_true_iff

omit [LinearOrder Mid] in
theorem mem_mids_of_alive {d : Description Mid}
    (h : entry ∈ d.medias ∨ d.application = some entry) : entry.mid ∈ d.mids := by
  rw [mem_mids]
  rcases h with h | h
  · exact Or.inl ⟨entry, h, rfl⟩
  · exact Or.inr ⟨entry, h, rfl⟩

theorem WellFormed.nodup {d : Description Mid} (h : d.WellFormed) :
    (d.mediaEntries.map Prod.fst).Nodup :=
  List.pairwise_map.2 (h.ranked.imp fun hlt => ne_of_lt hlt)

theorem generateSDP_eq_some_iff {d : Description Mid} {text : SdpText Mid} :
    d.generateSDP false = some text ↔
      ((d.mediaEntries.map Prod.snd).filter d.alive).all d.writes = true ∧
        text = ⟨some (d.mediaEntries.map Prod.fst),
          (d.mediaEntries.map Prod.snd).filter d.alive⟩ := by
  have hfilter : (fun entry => d.alive entry && !(false && entry.kind ≠ .application)) =
    d.alive := by
    funext entry
    simp
  unfold generateSDP
  dsimp only
  rw [hfilter]
  split
  · next hall => simp [hall, eq_comm]
  · next hall => simp [hall]

theorem WellFormed.map_mid {d : Description Mid} (h : d.WellFormed) :
    d.mediaEntries.map (fun x => x.2.mid) = d.mediaEntries.map Prod.fst :=
  List.map_congr_left fun x hx => (h.keys x hx).1

theorem hasMid_iff {d : Description Mid} (h : d.medias = [] → d.application = none) (mid : Mid) :
    d.hasMid mid = true ↔ mid ∈ d.mids := by
  rw [mem_mids]
  unfold hasMid
  by_cases hnil : d.medias = []
  · rw [if_pos hnil, hnil, h hnil]
    simp
  · rw [if_neg hnil]
    cases d.application <;> simp

theorem Alive.filter_alive {d : Description Mid} (h : d.Alive) :
    (d.mediaEntries.map Prod.snd).filter d.alive = d.mediaEntries.map Prod.snd := by
  refine List.filter_eq_self.2 fun entry hentry => ?_
  obtain ⟨x, hx, rfl⟩ := List.mem_map.1 hentry
  exact alive_iff.2 (h.entries x hx)

theorem consistent_iff_alive {d : Description Mid} (h : d.WellFormed) :
    d.Consistent ↔ d.Alive ∧ d.Written := by
  constructor
  · intro hc
    obtain ⟨text, listed, htext, heq, hlisted, hsections⟩ := hc.text
    obtain ⟨hall, rfl⟩ := generateSDP_eq_some_iff.1 htext
    obtain rfl := Option.some.inj heq
    have halive : d.Alive := by
      refine ⟨fun x hx => ?_, fun hnil => ?_⟩
      · -- the mid is listed, so it has a section, which stands under the same key
        have hmem := (hlisted.2 x.1).1 (List.mem_map_of_mem hx)
        obtain ⟨entry, hentry, hmid⟩ := List.mem_map.1 ((hsections.2 x.1).2 hmem)
        rw [List.mem_filter, alive_iff] at hentry
        obtain ⟨y, hy, rfl⟩ := List.mem_map.1 hentry.1
        have hkey : y.1 = x.1 := (h.keys y hy).1.symm.trans hmid
        rw [← List.inj_on_of_nodup_map h.nodup hy hx hkey]
        exact hentry.2
      · rcases happ : d.application with _ | app
        · rfl
        · have hmem : app.mid ∈ d.mids := mem_mids.2 (Or.inr ⟨app, happ, rfl⟩)
          have hhas := (hc.hasMid app.mid).2 hmem
          unfold hasMid at hhas
          rw [if_pos hnil] at hhas
          cases hhas
    refine ⟨halive, fun x hx => ?_⟩
    rw [halive.filter_alive] at hall
    exact List.all_eq_true.1 hall x.2 (List.mem_map_of_mem hx)
  · rintro ⟨halive, hwritten⟩
    have hkeys : d.Lists (d.mediaEntries.map Prod.fst) := by
      refine ⟨h.nodup, fun mid => ⟨fun hmem => ?_, fun hmem => ?_⟩⟩
      · obtain ⟨x, hx, rfl⟩ := List.mem_map.1 hmem
        rw [← (h.keys x hx).1]
        exact mem_mids_of_alive (halive.entries x hx)
      · obtain ⟨x, hx, rfl⟩ := h.listed mid hmem
        exact List.mem_map_of_mem hx
    refine ⟨⟨_, _, generateSDP_eq_some_iff.2 ⟨?_, rfl⟩, rfl, hkeys, ?_⟩, hasMid_iff halive.medias⟩
    · rw [halive.filter_alive]
      exact List.all_eq_true.2 (List.forall_mem_map.2 hwritten)
    · dsimp only
      rw [halive.filter_alive, List.map_map]
      rw [show (MediaEntry.mid ∘ Prod.snd : Mid × MediaEntry Mid → Mid) = fun x => x.2.mid from rfl,
        h.map_mid]
      exact hkeys

/-! ## Steps -/

variable {entries : List (Mid × MediaEntry Mid)}

section

variable (h : Ranked (fun x : Mid × MediaEntry Mid => x.1) entries)
include h

theorem mem_emplace {mid : Mid} {x : Mid × MediaEntry Mid} :
    x ∈ emplace mid entry entries ↔
      x ∈ entries ∨ (x = (mid, entry) ∧ ∀ y ∈ entries, y.1 ≠ mid) := by
  have hlt : ∀ a b : Mid, decide (a < b) = true ↔ id a < id b := fun _ _ => decide_eq_true_iff
  exact mem_insertBy_iff hlt h

theorem ranked_emplace (mid : Mid) (entry : MediaEntry Mid) :
    Ranked (fun x : Mid × MediaEntry Mid => x.1) (emplace mid entry entries) := by
  have hlt : ∀ a b : Mid, decide (a < b) = true ↔ id a < id b := fun _ _ => decide_eq_true_iff
  exact @ranked_insertBy Mid _ Mid _ Prod.fst entries (mid, entry) _ id
    (fun x _ => ⟨hlt x.1 mid, hlt mid x.1⟩) h

theorem exists_mem_emplace (mid : Mid)
    (entry : MediaEntry Mid) : ∃ x ∈ emplace mid entry entries, x.1 = mid := by
  by_cases hex : ∃ y ∈ entries, y.1 = mid
  · obtain ⟨y, hy, heq⟩ := hex
    exact ⟨y, (mem_emplace h).2 (Or.inl hy), heq⟩
  · push Not at hex
    exact ⟨(mid, entry), (mem_emplace h).2 (Or.inr ⟨rfl, hex⟩), rfl⟩

end

theorem wellFormed_init : ({} : Description Mid).WellFormed :=
  ⟨List.Pairwise.nil, by simp, by simp, by simp, by simp [mids]⟩

omit [LinearOrder Mid] in
theorem alive_init : ({} : Description Mid).Alive := ⟨by simp, fun _ => rfl⟩

theorem WellFormed.addMedia {d : Description Mid} (h : d.WellFormed) (video : Bool) (mid : Mid)
    (content : Media) : (d.addMedia video mid content).WellFormed := by
  refine ⟨ranked_emplace h.ranked _ _, fun x hx => ?_, fun media hmedia => ?_, fun app happ => ?_,
    fun m hm => ?_⟩
  · rcases (mem_emplace h.ranked).1 hx with hx | ⟨rfl, -⟩
    · exact ⟨(h.keys x hx).1, Nat.lt_succ_of_lt (h.keys x hx).2⟩
    · exact ⟨rfl, Nat.lt_succ_self _⟩
  · rcases List.mem_append.1 hmedia with hmedia | hmedia
    · exact ⟨Nat.lt_succ_of_lt (h.medias media hmedia).1, (h.medias media hmedia).2⟩
    · rw [List.mem_singleton.1 hmedia]
      refine ⟨Nat.lt_succ_self _, ?_⟩
      cases video <;> exact fun hkind => by cases hkind
  · exact ⟨Nat.lt_succ_of_lt (h.application app happ).1, (h.application app happ).2⟩
  · have hold : ∀ m ∈ d.mids, ∃ x ∈ (d.addMedia video mid content).mediaEntries, x.1 = m := by
      intro m hm
      obtain ⟨x, hx, hxm⟩ := h.listed m hm
      exact ⟨x, (mem_emplace h.ranked).2 (Or.inl hx), hxm⟩
    rcases mem_mids.1 hm with ⟨media, hmedia, rfl⟩ | ⟨app, happ, rfl⟩
    · rcases List.mem_append.1 hmedia with hmedia | hmedia
      · exact hold _ (mem_mids.2 (Or.inl ⟨media, hmedia, rfl⟩))
      · rw [List.mem_singleton.1 hmedia]
        exact exists_mem_emplace h.ranked _ _
    · exact hold _ (mem_mids.2 (Or.inr ⟨app, happ, rfl⟩))

theorem WellFormed.removeMedia {d : Description Mid} (h : d.WellFormed) (mid : Mid) :
    (d.removeMedia mid).WellFormed := by
  refine ⟨h.ranked, h.keys, fun media hmedia => h.medias media (List.mem_of_mem_filter hmedia),
    h.application, fun m hm => h.listed m ?_⟩
  rcases mem_mids.1 hm with ⟨media, hmedia, rfl⟩ | happ
  · exact mem_mids.2 (Or.inl ⟨media, List.mem_of_mem_filter hmedia, rfl⟩)
  · exact mem_mids.2 (Or.inr happ)

theorem WellFormed.setApplication {d : Description Mid} (h : d.WellFormed) (mid : Mid) :
    (d.setApplication mid).WellFormed := by
  refine ⟨ranked_emplace h.ranked _ _, fun x hx => ?_, fun media hmedia => ?_, fun app happ => ?_,
    fun m hm => ?_⟩
  · rcases (mem_emplace h.ranked).1 hx with hx | ⟨rfl, -⟩
    · exact ⟨(h.keys x hx).1, Nat.lt_succ_of_lt (h.keys x hx).2⟩
    · exact ⟨rfl, Nat.lt_succ_self _⟩
  · exact ⟨Nat.lt_succ_of_lt (h.medias media hmedia).1, (h.medias media hmedia).2⟩
  · obtain rfl := Option.some.inj happ
    exact ⟨Nat.lt_succ_self _, rfl⟩
  · rcases mem_mids.1 hm with ⟨media, hmedia, rfl⟩ | ⟨app, happ, rfl⟩
    · obtain ⟨x, hx, hxm⟩ := h.listed media.mid (mem_mids.2 (Or.inl ⟨media, hmedia, rfl⟩))
      exact ⟨x, (mem_emplace h.ranked).2 (Or.inl hx), hxm⟩
    · obtain rfl := Option.some.inj happ
      exact exists_mem_emplace h.ranked _ _

theorem wellFormed_step {d : Description Mid} (h : d.WellFormed) (op : DescriptionOp Mid) :
    ((descriptionMachine Mid).step d op).1.WellFormed := by
  cases op with
  | addMedia video mid content => exact h.addMedia video mid content
  | changeMedia id content => exact ⟨h.ranked, h.keys, h.medias, h.application, h.listed⟩
  | removeMedia mid => exact h.removeMedia mid
  | setApplication mid => exact h.setApplication mid

theorem WellFormed.ne_application {d : Description Mid} (h : d.WellFormed)
    (hmedia : entry ∈ d.medias) : d.application ≠ some entry :=
  fun happ => (h.medias entry hmedia).2 (h.application entry happ).2

theorem alive_step_iff {d : Description Mid} (h : d.WellFormed) (halive : d.Alive)
    (op : DescriptionOp Mid) :
    ((descriptionMachine Mid).step d op).1.Alive ↔ d.KeepsEntries op := by
  cases op with
  | changeMedia id content => exact iff_of_true ⟨halive.entries, halive.medias⟩ trivial
  | addMedia video mid content =>
    refine iff_of_true ⟨fun x hx => ?_, fun hnil => ?_⟩ trivial
    · rcases (mem_emplace h.ranked).1 hx with hx | ⟨rfl, -⟩
      · exact (halive.entries x hx).imp (List.mem_append_left _) id
      · exact Or.inl (List.mem_append_right _ (List.mem_singleton_self _))
    · exact absurd hnil (List.append_ne_nil_of_right_ne_nil _ (List.cons_ne_nil _ _))
  | removeMedia mid =>
    constructor
    · rintro ⟨hentries, hmedias⟩
      refine ⟨fun x hx hmid => ?_, fun hall => hmedias ?_⟩
      · rcases hentries x hx with hmedia | happ
        · have hne := (List.mem_filter.1 hmedia).2
          rw [(h.keys x hx).1, hmid] at hne
          simp at hne
        · exact happ
      · exact List.filter_eq_nil_iff.2 fun media hmedia => by simp [hall media hmedia]
    · rintro ⟨hentries, hmedias⟩
      refine ⟨fun x hx => ?_, fun hnil => hmedias fun media hmedia => ?_⟩
      · by_cases hmid : x.1 = mid
        · exact Or.inr (hentries x hx hmid)
        · refine (halive.entries x hx).imp (fun hmedia => ?_) id
          exact List.mem_filter.2 ⟨hmedia, by simpa [(h.keys x hx).1] using hmid⟩
      · simpa using List.filter_eq_nil_iff.1 hnil media hmedia
  | setApplication mid =>
    constructor
    · rintro ⟨hentries, hmedias⟩
      refine ⟨fun hnil => (by cases hmedias hnil), fun x hx happ => ?_⟩
      rcases hentries x ((mem_emplace h.ranked).2 (Or.inl hx)) with hmedia | hnew
      · exact h.ne_application hmedia happ
      · have hid := (h.keys x hx).2
        rw [← Option.some.inj hnew] at hid
        exact lt_irrefl _ hid
    · rintro ⟨hmedias, hentries⟩
      refine ⟨fun x hx => ?_, fun hnil => absurd hnil hmedias⟩
      rcases (mem_emplace h.ranked).1 hx with hx | ⟨rfl, -⟩
      · exact Or.inl ((halive.entries x hx).resolve_right (hentries x hx))
      · exact Or.inr rfl

section

variable {d d' : Description Mid} {id : Nat} {content : Media}
  (h : d'.contents = Function.update d.contents id content)
include h

omit [LinearOrder Mid] in
theorem writes_of_ne (hne : entry.id ≠ id) : d'.writes entry = d.writes entry := by
  unfold writes
  rw [h, Function.update_of_ne hne]

omit [LinearOrder Mid] in
theorem writes_of_eq (heq : entry.id = id) :
    d'.writes entry = (decide (entry.kind = .application) || content.writes) := by
  unfold writes
  rw [h, heq, Function.update_self]

end

theorem written_step_iff {d : Description Mid} (h : d.WellFormed) (hwritten : d.Written)
    (op : DescriptionOp Mid) :
    ((descriptionMachine Mid).step d op).1.Written ↔ d.KeepsText op := by
  cases op with
  | addMedia video mid content =>
    have hcontents : (d.addMedia video mid content).contents =
        Function.update d.contents d.nextId content := rfl
    have hold : ∀ x ∈ d.mediaEntries, (d.addMedia video mid content).writes x.2 = true :=
      fun x hx => (writes_of_ne hcontents (Nat.ne_of_lt (h.keys x hx).2)).trans (hwritten x hx)
    have hnew : (d.addMedia video mid content).writes
        ⟨d.nextId, if video then .video else .audio, mid⟩ = content.writes := by
      rw [writes_of_eq hcontents rfl]
      cases video <;> rfl
    constructor
    · intro h'
      by_cases hex : ∃ x ∈ d.mediaEntries, x.1 = mid
      · exact Or.inr hex
      · push Not at hex
        exact Or.inl (hnew ▸ h' _ ((mem_emplace h.ranked).2 (Or.inr ⟨rfl, hex⟩)))
    · intro hkeeps x hx
      rcases (mem_emplace h.ranked).1 hx with hx | ⟨rfl, hfree⟩
      · exact hold x hx
      · rcases hkeeps with hcontent | ⟨x, hx, hmid⟩
        · exact hnew.trans hcontent
        · exact absurd hmid (hfree x hx)
  | changeMedia id content =>
    have hchanged : ∀ x ∈ d.mediaEntries, (d.changeMedia id content).writes x.2 = true ↔
        content.writes = true ∨ (x.2.id = id → x.2.kind = .application) := by
      intro x hx
      by_cases hid : x.2.id = id
      · rw [writes_of_eq rfl hid]
        simp [hid, or_comm]
      · rw [writes_of_ne rfl hid]
        exact iff_of_true (hwritten x hx) (Or.inr fun heq => absurd heq hid)
    refine (forall₂_congr hchanged).trans ?_
    unfold KeepsText
    by_cases hcontent : content.writes = true <;> simp [hcontent]
  | removeMedia mid => exact iff_of_true hwritten trivial
  | setApplication mid =>
    refine iff_of_true (fun x hx => ?_) trivial
    rcases (mem_emplace h.ranked).1 hx with hx | ⟨rfl, -⟩
    · exact hwritten x hx
    · rfl

/-- **A description is consistent after every operation exactly when** each finds what it must; and
while each finds what it must for the entries, it is consistent whenever all that are listed can be
written. -/
theorem consistent_iff (ops : List (DescriptionOp Mid)) :
    ((∀ done, done <+: ops → ((descriptionMachine Mid).final {} done).Consistent) ↔
        (descriptionMachine Mid).AllGood Keeps {} ops) ∧
      ((descriptionMachine Mid).AllGood KeepsEntries {} ops →
        (((descriptionMachine Mid).final {} ops).Consistent ↔
          ((descriptionMachine Mid).final {} ops).Written)) := by
  have hwell : ∀ (d : Description Mid) (op : DescriptionOp Mid),
      d.WellFormed ∧ d.Alive → d.KeepsEntries op →
      ((descriptionMachine Mid).step d op).1.WellFormed ∧
        ((descriptionMachine Mid).step d op).1.Alive :=
    fun d op h hkeeps => ⟨wellFormed_step h.1 op, (alive_step_iff h.1 h.2 op).2 hkeeps⟩
  have hinit : ({} : Description Mid).WellFormed ∧ ({} : Description Mid).Alive :=
    ⟨wellFormed_init, alive_init⟩
  have hwritten : ({} : Description Mid).Written := fun x hx => absurd hx List.not_mem_nil
  have hiff : ∀ (d : Description Mid) (op : DescriptionOp Mid),
      (d.WellFormed ∧ d.Alive) ∧ d.Written →
      (((descriptionMachine Mid).step d op).1.Consistent ↔ d.Keeps op) :=
    fun d op h => (consistent_iff_alive (wellFormed_step h.1.1 op)).trans
      (and_congr (alive_step_iff h.1.1 h.1.2 op) (written_step_iff h.1.1 h.2 op))
  refine ⟨?_, fun hkeeps => ?_⟩
  · rw [(descriptionMachine Mid).forall_prefix_iff_allGood Consistent,
      and_iff_right ((consistent_iff_alive hinit.1).2 ⟨hinit.2, hwritten⟩)]
    exact (descriptionMachine Mid).allGood_iff_of_invariant (fun d op h hkeeps =>
      ⟨hwell d op h.1 hkeeps.1, (written_step_iff h.1.1 h.2 op).2 hkeeps.2⟩) hiff
        ⟨hinit, hwritten⟩ ops
  · have hfinal := (descriptionMachine Mid).invariant_final hwell hinit hkeeps
    exact (consistent_iff_alive hfinal.1).trans (and_iff_right hfinal.2)

end Description

/-- **A removed media** stays on the `BUNDLE` line. -/
theorem removed_media_listed :
    ¬ ((descriptionMachine String).final {}
      [.addMedia false "audio" { mid := "audio".toList }, .removeMedia "audio"]).Consistent := by
  intro h
  obtain ⟨text, listed, htext, heq, hlisted, -⟩ := h.text
  obtain ⟨-, rfl⟩ := Description.generateSDP_eq_some_iff.1 htext
  obtain rfl := Option.some.inj heq
  have hmem := (hlisted.2 "audio").1 List.mem_cons_self
  revert hmem
  decide

end NaiveRtc.Sdp
