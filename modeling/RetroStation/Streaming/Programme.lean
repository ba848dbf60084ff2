import RetroStation.Streaming.StoredLiners

/-! # The shape of every session's programme

Songs, liners and the clip are decided by calls that overlap. In whatever order
they come back, the songs are the station's programme from the landing on, and
every liner stands between two of them.
-/

namespace RetroStation.Streaming

variable {config : StreamConfig} {loadDay : DayLoader}

/-- The songs among the slots from `start` up to `index`. -/
def songsBetween (slots : List Slot) (start index : Nat) : Nat :=
  ((slots.take index).drop start).countP Slot.isSong

/-- Where a liner stands: after a song and before one, with its cadence's songs
before it and since every earlier liner. -/
structure LinerPlaced (slots : List Slot) (endSeq : Option Nat) (cadence : Option LinerCadence)
    (index : Nat) : Prop where
  after : ∃ before song, index = before + 1 ∧ slots[before]? = some (.song song)
  before : ∀ slot, slots[index + 1]? = some slot → ∃ song, slot = .song song
  goesOn : endSeq ≠ some (index + 1)
  due : ∃ kept, cadence = some kept ∧ kept.songs ≤ songsBetween slots 0 index ∧
    ∀ earlier liner, earlier < index → slots[earlier]? = some (.liner liner) →
      kept.songs ≤ songsBetween slots (earlier + 1) index

theorem linerPlaced {session : StreamSession} (hsession : SessionOk config loadDay session)
    {index : Nat} {liner : LinerSlot}
    (hliner : session.handedOut[index]? = some (.liner liner)) :
    LinerPlaced session.handedOut session.endSeq session.linerCadence index := by
  obtain ⟨⟨before, next, hbefore, hsong, -, -⟩, kept, hkept, hdue⟩ :=
    hsession.lawful.liner_between hliner
  constructor
  case after => exact ⟨before, liner.after, hbefore, hsong⟩
  case before => exact fun slot hslot => hsession.lawful.song_after_liner hliner hslot
  case goesOn =>
    intro hend
    obtain ⟨last, hlast, hslot⟩ := hsession.endWalk _ hend
    obtain rfl : last = index := by omega
    rw [hliner] at hslot
    rcases hslot with ⟨clip, hclip⟩ | ⟨song, ended, hsong, -⟩
    · simp at hclip
    · simp at hsong
  case due =>
    refine ⟨kept, hkept, ?_, fun earlier other hearlier hother => ?_⟩
    · exact hdue.trans (songsSince_le_countP _)
    · have htaken : (session.handedOut.take index)[earlier]? = some (.liner other) := by
        rw [List.getElem?_take_of_lt hearlier, hother]
      exact hdue.trans (songsSince_le_countP_drop _ htaken)

/-- Every session's programme, over any interleaving of its calls. -/
theorem programme_shape {openedAt : Int} {bookmarkKey : Option BookmarkKey} {token : String}
    {stationId : Option Uuid} {linerCadence : Option LinerCadence}
    {trace : List (SessionAction × Reply)} {state : SessionState}
    (hrun : (itemMachine config loadDay).Run
      (admitted openedAt bookmarkKey token stationId linerCadence) trace state) :
    let slots := state.session.handedOut
    (∀ seq, state.session.assigned.get? seq = slots[seq]?) ∧
    (∀ slot, slots[0]? = some slot → ∃ song, slot = .song song) ∧
    (∀ index liner, slots[index]? = some (.liner liner) →
      LinerPlaced slots state.session.endSeq linerCadence index) ∧
    (∀ first, (songsOf slots)[0]? = some first → ∃ landing,
      state.session.landing = some landing ∧ first.ref = landing.ref ∧
        first.offsetMs = landing.offsetMs ∧
        ∀ index song, (songsOf slots)[index]? = some song →
          programme loadDay config.timing landing.ref index = some song.ref ∧
            ∃ item, itemAt loadDay song.ref = .ok item ∧ item.isPlayable config.timing) ∧
    ∀ index song next, (songsOf slots)[index]? = some song →
      (songsOf slots)[index + 1]? = some next →
      song.ref < next.ref ∧ ∃ file nextFile, song.item.file = some file ∧
        next.item.file = some nextFile ∧ file.fileId ≠ nextFile.fileId := by
  have hsession := (stateOk_run hrun).session
  have hcadence : state.session.linerCadence = linerCadence :=
    (extends_run (stateOk_admitted ..) hrun).cadence
  refine ⟨hsession.consecutive.get?, fun slot hslot => hsession.lawful.song_first hslot,
    fun index liner hliner => hcadence ▸ linerPlaced hsession hliner, ?_,
    fun index song next hsong hnext => hsession.lawful.songs_differ hsong hnext⟩
  -- The first slot is a song at the landing; every later song is counted from it.
  intro first hfirst
  obtain ⟨slot, hslot⟩ : ∃ slot, state.session.handedOut[0]? = some slot := by
    cases hslots : state.session.handedOut with
    | nil => simp [hslots] at hfirst
    | cons head rest => exact ⟨head, rfl⟩
  obtain ⟨landing, item, hlanding, rfl⟩ := hsession.first slot hslot
  obtain rfl : (⟨landing.ref, item, landing.offsetMs⟩ : Assigned) = first := by
    cases hslots : state.session.handedOut with
    | nil => simp [hslots] at hslot
    | cons head rest =>
        obtain rfl : head = _ := by simpa [hslots] using hslot
        simpa [hslots] using hfirst
  refine ⟨landing, hlanding, rfl, rfl, fun index song hsong => ?_⟩
  obtain ⟨hprogramme, logged, hlogged, hplayable, -⟩ :=
    hsession.lawful.programme_songs _ hfirst index song hsong
  exact ⟨hprogramme, logged, hlogged, hplayable⟩

/-- Four songs with a liner after each of the first three. -/
theorem programme_shape_threeLiners : ∃ state : SessionState,
    (∀ index ∈ [1, 3, 5], LinerPlaced state.session.handedOut state.session.endSeq
      (some ⟨1, by decide⟩) index) ∧
    (∀ (index : Nat) (ref : ItemRef), fourRefs[index]? = some ref →
      programme fourSongs {} ⟨1, 0⟩ index = some ref) ∧
    ∀ index < 3, ∃ song next : Assigned, (songsOf state.session.handedOut)[index]? = some song ∧
      (songsOf state.session.handedOut)[index + 1]? = some next ∧ song.ref < next.ref := by
  obtain ⟨trace, state, hrun, -, -, hsongs, hliners⟩ := rotation_run
  obtain ⟨-, -, hplaced, hwalk, hlater⟩ := programme_shape hrun
  have hsong : ∀ (index : Nat) (ref : ItemRef), fourRefs[index]? = some ref →
      ∃ song : Assigned, (songsOf state.session.handedOut)[index]? = some song ∧
        song.ref = ref := by
    intro index ref href
    rwa [← hsongs, List.getElem?_map, Option.map_eq_some_iff] at href
  refine ⟨state, fun index hindex => ?_, fun index ref href => ?_, fun index hindex => ?_⟩
  · have hslot : (state.session.handedOut.map fun slot => slot.liner?.isSome)[index]? =
        some true := by
      rw [hliners]
      simp only [List.mem_cons, List.not_mem_nil, or_false] at hindex
      rcases hindex with rfl | rfl | rfl <;> rfl
    rw [List.getElem?_map, Option.map_eq_some_iff] at hslot
    obtain ⟨slot, hslot, hliner⟩ := hslot
    cases slot with
    | liner liner => exact hplaced index liner hslot
    | song | clip => cases hliner
  · obtain ⟨first, hfirst, hlanding⟩ := hsong 0 ⟨1, 0⟩ rfl
    obtain ⟨landing, -, hsame, -, hprogramme⟩ := hwalk first hfirst
    obtain ⟨song, hfound, rfl⟩ := hsong index ref href
    rw [← hlanding, hsame]
    exact (hprogramme index song hfound).1
  · have hlength : fourRefs.length = 4 := rfl
    obtain ⟨song, hfound, -⟩ := hsong index _ (List.getElem?_eq_getElem (by omega))
    obtain ⟨next, hnext, -⟩ := hsong (index + 1) _ (List.getElem?_eq_getElem (by omega))
    exact ⟨song, next, hfound, hnext, (hlater index song next hfound hnext).1⟩

end RetroStation.Streaming
