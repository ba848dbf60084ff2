import RetroStation.Streaming.Items

/-! # What a session may hand out

`Lawful` says what a session is for: the songs follow the station's programme, a
liner comes between two of them when it is due, and the clip follows the last.
The lists are grown at the end only, as a session grows.
-/

namespace RetroStation.Streaming

def Slot.song? : Slot → Option Assigned
  | .song assigned => some assigned
  | _ => none

def Slot.isSong (slot : Slot) : Bool := slot.song?.isSome

/-- The songs among the slots, in order. -/
def songsOf (slots : List Slot) : List Assigned := slots.filterMap Slot.song?

/-- One more slot in the count of songs since the last liner. -/
def countSlot (count : Nat) : Slot → Nat
  | .liner _ => 0
  | .song _ => count + 1
  | .clip _ => count

/-- The songs since the last liner, or since the start when there is none. -/
def songsSince (slots : List Slot) : Nat := slots.foldl countSlot 0

section

variable (config : StreamConfig) (loadDay : DayLoader) (cadence : Option LinerCadence)

/-- What may be handed out after the slots so far. -/
inductive MayFollow : List Slot → Slot → Prop
  | landing {landing : Landing} {item : ScheduleItem}
      (hitem : itemAt loadDay landing.ref = .ok item)
      (hfits : Fits loadDay config.timing landing) :
      MayFollow [] (.song ⟨landing.ref, item, landing.offsetMs⟩)
  | song {slots : List Slot} {previous : Slot} {walked next : Assigned}
      (hlast : slots.getLast? = some previous) (hwalked : walkedFrom previous = some walked)
      (hnext : following config loadDay walked.ref = .ok next)
      (answer : Option (Option CuePoints)) :
      MayFollow slots (.song (reread config.timing next answer))
  | liner {slots : List Slot} {song next : Assigned} {slot : LinerSlot}
      (hlast : slots.getLast? = some (.song song))
      (hnext : following config loadDay song.ref = .ok next)
      (hdue : linerDue (songsSince slots) cadence) (hafter : slot.after = song)
      (hnextSong : slot.nextSong = some next) :
      MayFollow slots (.liner slot)
  | clip {slots : List Slot} {song : Assigned} {ended : ItemRef}
      (hlast : slots.getLast? = some (.song song))
      (hend : following config loadDay song.ref = .error (.endOfSchedule ended))
      (clip : FinalClip) :
      MayFollow slots (.clip clip)

/-- Lists of slots that a session may hand out, grown at the end. -/
inductive Lawful : List Slot → Prop
  | nothing : Lawful []
  | append {slots : List Slot} {slot : Slot} (hslots : Lawful slots)
      (hslot : MayFollow config loadDay cadence slots slot) : Lawful (slots ++ [slot])

end

theorem getElem?_append_singleton_eq_some {α : Type} {values : List α} {last value : α}
    {index : Nat} (hvalue : (values ++ [last])[index]? = some value) :
    index < values.length ∧ values[index]? = some value ∨ index = values.length ∧ value = last := by
  rcases Nat.lt_trichotomy index values.length with hlt | rfl | hgt
  · rw [List.getElem?_append_left hlt] at hvalue
    exact .inl ⟨hlt, hvalue⟩
  · exact .inr ⟨rfl, by simpa using hvalue.symm⟩
  · rw [List.getElem?_eq_none (by simp; omega)] at hvalue
    cases hvalue

@[simp] theorem songsOf_append (first second : List Slot) :
    songsOf (first ++ second) = songsOf first ++ songsOf second :=
  List.filterMap_append

@[simp] theorem songsOf_nil : songsOf [] = [] := rfl

@[simp] theorem songsOf_song (assigned : Assigned) (rest : List Slot) :
    songsOf (.song assigned :: rest) = assigned :: songsOf rest := rfl

@[simp] theorem songsOf_liner (slot : LinerSlot) (rest : List Slot) :
    songsOf (.liner slot :: rest) = songsOf rest := rfl

@[simp] theorem songsOf_clip (clip : FinalClip) (rest : List Slot) :
    songsOf (.clip clip :: rest) = songsOf rest := rfl

@[simp] theorem songsSince_append_singleton (slots : List Slot) (slot : Slot) :
    songsSince (slots ++ [slot]) = countSlot (songsSince slots) slot := by
  simp [songsSince]

/-- A slot counts at most the songs of any stretch that starts after a liner. -/
theorem songsSince_le_countP (slots : List Slot) :
    songsSince slots ≤ slots.countP Slot.isSong := by
  induction slots using List.reverseRecOn with
  | nil => simp [songsSince]
  | append_singleton slots slot ih =>
      rw [songsSince_append_singleton, List.countP_append]
      cases slot <;> simp [countSlot, Slot.isSong, Slot.song?] <;> omega

theorem songsSince_le_countP_drop (slots : List Slot) {index : Nat} {liner : LinerSlot}
    (hliner : slots[index]? = some (.liner liner)) :
    songsSince slots ≤ (slots.drop (index + 1)).countP Slot.isSong := by
  induction slots using List.reverseRecOn with
  | nil => simp at hliner
  | append_singleton slots slot ih =>
      rw [songsSince_append_singleton]
      rcases getElem?_append_singleton_eq_some hliner with ⟨hlt, hliner⟩ | ⟨-, rfl⟩
      · rw [List.drop_append_of_le_length (by omega), List.countP_append]
        have hbefore := ih hliner
        cases slot <;> simp [countSlot, Slot.isSong, Slot.song?] <;> omega
      · simp [countSlot]

section

variable {config : StreamConfig} {loadDay : DayLoader}

theorem following_eq_ok {after : ItemRef} {next : Assigned} :
    following config loadDay after = .ok next ↔
      nextItem loadDay config.timing after = .ok next.ref ∧
        itemAt loadDay next.ref = .ok next.item ∧ next.offsetMs = 0 := by
  obtain ⟨ref, item, offsetMs⟩ := next
  simp only [following, bind_eq_ok, pure, Except.pure, Except.ok.injEq, Assigned.mk.injEq]
  constructor
  · rintro ⟨found, hfound, read, hread, rfl, rfl, rfl⟩
    exact ⟨hfound, hread, rfl⟩
  · rintro ⟨hfound, hread, rfl⟩
    exact ⟨ref, hfound, item, hread, rfl, rfl, rfl⟩

/-- The song is a play of the day read that can be played, with that play's file. -/
def Airs (config : StreamConfig) (loadDay : DayLoader) (song : Assigned) : Prop :=
  ∃ item, itemAt loadDay song.ref = .ok item ∧ item.isPlayable config.timing ∧
    ∃ logged file, item.file = some logged ∧ song.item.file = some file ∧
      file.fileId = logged.fileId

theorem airs_of_isPlayable {song : Assigned} {item : ScheduleItem}
    (hitem : itemAt loadDay song.ref = .ok item) (hsong : song.item = item)
    (hplayable : item.isPlayable config.timing) : Airs config loadDay song := by
  obtain ⟨file, hfile, -⟩ := (item.isPlayable_iff _).mp hplayable
  exact ⟨item, hitem, hplayable, file, file, hfile, hsong ▸ hfile, rfl⟩

theorem Airs.reread {song : Assigned} {item : ScheduleItem}
    (hitem : itemAt loadDay song.ref = .ok item) (hsong : song.item = item)
    (hplayable : item.isPlayable config.timing) (answer : Option (Option CuePoints)) :
    Airs config loadDay (reread config.timing song answer) := by
  obtain ⟨file, hfile, hplay⟩ := (item.isPlayable_iff _).mp hplayable
  obtain ⟨fresh, hfresh, -, hsame⟩ := reread_file (hsong ▸ hfile) hplay answer
  exact ⟨item, by simpa using hitem, hplayable, file, fresh, hfile, hfresh, hsame⟩

/-- The song walked to airs after the song walked from: later, and another file. -/
theorem Airs.following {song next : Assigned} (hsong : Airs config loadDay song)
    (hnext : following config loadDay song.ref = .ok next) :
    song.ref < next.ref ∧ next.item.isPlayable config.timing ∧
      sameFile song.item.file next.item.file = false := by
  obtain ⟨hstep, hread, -⟩ := following_eq_ok.mp hnext
  obtain ⟨item, hitem, hplayable, logged, file, hlogged, hfile, hsame⟩ := hsong
  obtain ⟨hlt, found, hfound, hfoundPlayable, hother⟩ := nextItem_airs hitem hplayable hstep
  obtain rfl := Except.ok.inj (hfound.symm.trans hread)
  refine ⟨hlt, hfoundPlayable, ?_⟩
  rw [hlogged] at hother
  rw [hfile]
  cases hnextFile : next.item.file with
  | none => rfl
  | some nextFile =>
      rw [hnextFile] at hother
      simpa [sameFile, hsame] using hother

end

/-- The last of the first slots is the one before the next index. -/
theorem getLast?_take {slots : List Slot} {index : Nat} {slot : Slot}
    (hslot : slots[index]? = some slot) : (slots.take (index + 1)).getLast? = some slot := by
  rw [List.take_add_one, hslot]
  simp

theorem getElem?_of_getLast?_take {slots : List Slot} {index : Nat} {slot : Slot}
    (hlast : (slots.take index).getLast? = some slot) (hindex : index ≤ slots.length) :
    ∃ before, index = before + 1 ∧ slots[before]? = some slot := by
  cases index with
  | zero => simp at hlast
  | succ before =>
      refine ⟨before, rfl, ?_⟩
      rw [List.getElem?_eq_getElem (by omega)]
      rw [getLast?_take (List.getElem?_eq_getElem (by omega))] at hlast
      exact hlast

namespace Lawful

variable {config : StreamConfig} {loadDay : DayLoader} {cadence : Option LinerCadence}
variable {slots : List Slot}

/-- Each slot of a lawful list may follow the slots before it. -/
theorem mayFollow (hslots : Lawful config loadDay cadence slots) {index : Nat} {slot : Slot}
    (hslot : slots[index]? = some slot) :
    MayFollow config loadDay cadence (slots.take index) slot := by
  induction hslots with
  | nothing => simp at hslot
  | @append slots last hslots hlast ih =>
      rcases getElem?_append_singleton_eq_some hslot with ⟨hlt, hslot⟩ | ⟨rfl, rfl⟩
      · rw [List.take_append_of_le_length (by omega)]
        exact ih hslot
      · simpa using hlast

/-- The walk goes on from the last song, whether or not a liner came after it. -/
theorem last_song (hslots : Lawful config loadDay cadence slots) {previous : Slot}
    {walked : Assigned} (hlast : slots.getLast? = some previous)
    (hwalked : walkedFrom previous = some walked) :
    (songsOf slots).getLast? = some walked := by
  cases hslots with
  | nothing => simp at hlast
  | @append slots last hslots hslot =>
      obtain rfl : last = previous := by simpa using hlast
      cases hslot with
      | landing hitem hfits => simpa [walkedFrom] using hwalked
      | song hbefore hbeforeWalked hnext answer => simpa [walkedFrom] using hwalked
      | @liner slots song next slot hbefore hnext hdue hafter hnextSong =>
          obtain rfl : slot.after = walked := by simpa [walkedFrom] using hwalked
          obtain ⟨rest, rfl⟩ := List.getLast?_eq_some_iff.mp hbefore
          simp [hafter]
      | clip => simp [walkedFrom] at hwalked

/-- The songs of a lawful list are the programme's, in order. -/
theorem programme_songs (hslots : Lawful config loadDay cadence slots) :
    ∀ first, (songsOf slots)[0]? = some first → ∀ index song, (songsOf slots)[index]? = some song →
      programme loadDay config.timing first.ref index = some song.ref ∧
        Airs config loadDay song := by
  induction hslots with
  | nothing => simp
  | @append slots slot hslots hslot ih =>
      intro first hfirst index song hsong
      cases hslot with
      | @landing landing item hitem hfits =>
          obtain ⟨landed, file, hlanded, hfile, hplay, -⟩ := hfits
          obtain rfl := Except.ok.inj (hlanded.symm.trans hitem)
          cases index with
          | zero =>
              obtain rfl : _ = first := by simpa using hfirst
              obtain rfl : _ = song := by simpa using hsong
              exact ⟨rfl, airs_of_isPlayable hitem rfl
                ((ScheduleItem.isPlayable_iff _ _).mpr ⟨file, hfile, hplay⟩)⟩
          | succ index => simp at hsong
      | @song slots previous walked next hlast hwalked hnext answer =>
          have hwalkedLast := hslots.last_song hlast hwalked
          rw [List.getLast?_eq_getElem?] at hwalkedLast
          have hpos : 0 < (songsOf slots).length := by
            by_contra hnone
            rw [List.getElem?_eq_none (by omega)] at hwalkedLast
            cases hwalkedLast
          rw [songsOf_append, songsOf_song, songsOf_nil] at hfirst hsong
          rw [List.getElem?_append_left hpos] at hfirst
          rcases getElem?_append_singleton_eq_some hsong with ⟨-, hsong⟩ | ⟨rfl, rfl⟩
          · exact ih first hfirst index song hsong
          · obtain ⟨hprogramme, hairs⟩ := ih first hfirst _ walked hwalkedLast
            obtain ⟨hstep, hread, -⟩ := following_eq_ok.mp hnext
            have hplayable := (hairs.following hnext).2.1
            obtain ⟨before, hbefore⟩ : ∃ before, (songsOf slots).length = before + 1 :=
              ⟨_, (Nat.succ_pred_eq_of_pos hpos).symm⟩
            rw [hbefore, Nat.add_sub_cancel] at hprogramme
            refine ⟨?_, .reread hread rfl hplayable answer⟩
            simp [hbefore, programme, hprogramme, hstep, Except.toOption]
      | liner => exact ih first (by simpa using hfirst) index song (by simpa using hsong)
      | clip => exact ih first (by simpa using hfirst) index song (by simpa using hsong)

/-- A song and the next one are different files, and the next is later. -/
theorem songs_differ (hslots : Lawful config loadDay cadence slots) {index : Nat}
    {song next : Assigned} (hsong : (songsOf slots)[index]? = some song)
    (hnext : (songsOf slots)[index + 1]? = some next) :
    song.ref < next.ref ∧ ∃ file nextFile, song.item.file = some file ∧
      next.item.file = some nextFile ∧ file.fileId ≠ nextFile.fileId := by
  obtain ⟨hindex, -⟩ := List.getElem?_eq_some_iff.mp hsong
  obtain ⟨first, hfirst⟩ : ∃ first, (songsOf slots)[0]? = some first :=
    ⟨_, List.getElem?_eq_getElem (by omega)⟩
  obtain ⟨hprogramme, hairs⟩ := hslots.programme_songs first hfirst index song hsong
  obtain ⟨hstep, item, hitem, -, logged, file, hlogged, hfile, hsame⟩ :=
    hslots.programme_songs first hfirst (index + 1) next hnext
  have hnextItem : nextItem loadDay config.timing song.ref = .ok next.ref := by
    rw [programme, hprogramme, Option.bind_some] at hstep
    cases hresult : nextItem loadDay config.timing song.ref with
    | error error => simp [hresult, Except.toOption] at hstep
    | ok ref => simpa [hresult, Except.toOption] using hstep
  have hwalk : following config loadDay song.ref = .ok ⟨next.ref, item, 0⟩ :=
    following_eq_ok.mpr ⟨hnextItem, hitem, rfl⟩
  obtain ⟨hlt, -, hother⟩ := hairs.following hwalk
  obtain ⟨-, -, -, -, songFile, -, hsongFile, -⟩ := hairs
  rw [hlogged, hsongFile] at hother
  refine ⟨hlt, songFile, file, hsongFile, hfile, ?_⟩
  simpa [sameFile, hsame] using hother

/-- A liner comes between a song and the one walked to after it, as many songs
after the last liner as the cadence says. -/
theorem liner_between (hslots : Lawful config loadDay cadence slots) {index : Nat}
    {liner : LinerSlot} (hliner : slots[index]? = some (.liner liner)) :
    (∃ before next, index = before + 1 ∧ slots[before]? = some (.song liner.after) ∧
      following config loadDay liner.after.ref = .ok next ∧ liner.nextSong = some next) ∧
      ∃ kept, cadence = some kept ∧ kept.songs ≤ songsSince (slots.take index) := by
  obtain ⟨hindex, -⟩ := List.getElem?_eq_some_iff.mp hliner
  have hfollow := hslots.mayFollow hliner
  generalize htaken : slots.take index = taken at hfollow ⊢
  cases hfollow with
  | @liner _ song next slot hlast hnext hdue hafter hnextSong =>
      subst htaken hafter
      obtain ⟨before, hbefore, hsong⟩ := getElem?_of_getLast?_take hlast (by omega)
      exact ⟨⟨before, next, hbefore, hsong, hnext, hnextSong⟩, linerDue_iff.mp hdue⟩

/-- The entry after a liner is a song. -/
theorem song_after_liner (hslots : Lawful config loadDay cadence slots) {index : Nat}
    {liner : LinerSlot} {slot : Slot} (hliner : slots[index]? = some (.liner liner))
    (hslot : slots[index + 1]? = some slot) : ∃ song, slot = .song song := by
  have hbefore := getLast?_take hliner
  have hfollow := hslots.mayFollow hslot
  generalize slots.take (index + 1) = taken at hbefore hfollow
  cases hfollow with
  | landing => exact ⟨_, rfl⟩
  | song => exact ⟨_, rfl⟩
  | liner hlast =>
      rw [hlast] at hbefore
      cases hbefore
  | clip hlast =>
      rw [hlast] at hbefore
      cases hbefore

/-- The first entry is a song. -/
theorem song_first (hslots : Lawful config loadDay cadence slots) {slot : Slot}
    (hslot : slots[0]? = some slot) : ∃ song, slot = .song song := by
  have hfollow := hslots.mayFollow hslot
  rw [List.take_zero] at hfollow
  cases hfollow with
  | landing => exact ⟨_, rfl⟩
  | song => exact ⟨_, rfl⟩
  | liner hlast => simp at hlast
  | clip hlast => simp at hlast

end Lawful

end RetroStation.Streaming
