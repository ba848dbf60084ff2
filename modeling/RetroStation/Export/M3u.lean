import RetroStation.Ingestion.HeaderCheck
import RetroStation.Matching.Values
import RetroStation.Text.Lines

/-! # The M3U export

A play is written as two lines, its title and the path of its file, if its final file is
present and not silent. A player reads a path with the title before it.
-/

namespace RetroStation.Export

open Library Matching Text

structure BroadcastPlayEvent where
  id : Uuid
  identityId : Uuid
  deriving DecidableEq, Repr

/-- Which file plays for one play, and whether its audio is silent. -/
structure PlayFileResolution where
  fileId : Option Uuid := none
  fileStatus : Option FileStatus := none
  audioSilent : Bool := false
  deriving DecidableEq, Repr

/-- What the export reads: every play has a resolution. -/
structure M3uRepos where
  getForPlay : Uuid → PlayFileResolution
  getIdentity : Uuid → Option BroadcastTrackIdentity
  getFile : Uuid → Option LibraryFile
  getSetting : String → Option String

/-- Maps a local library path to the path a player sees. -/
structure PathRewrite where
  localPrefix : String
  navidromePrefix : String
  deriving DecidableEq, Repr

def PathRewrite.apply (rewrite : PathRewrite) (filePath : String) : String :=
  if rewrite.localPrefix ≠ "" ∧ rewrite.navidromePrefix ≠ "" ∧
      rewrite.localPrefix.toList.isPrefixOf filePath.toList then
    rewrite.navidromePrefix ++ String.ofList (filePath.toList.drop rewrite.localPrefix.length)
  else filePath

section

variable (repos : M3uRepos)

def pathRewrite : PathRewrite where
  localPrefix := (repos.getSetting "local_path_prefix").getD ""
  navidromePrefix := (repos.getSetting "navidrome_path_prefix").getD ""

/-- The identity and the file of a play that has a playable file. -/
def playable (event : BroadcastPlayEvent) : Option (BroadcastTrackIdentity × LibraryFile) :=
  let resolution := repos.getForPlay event.id
  match resolution.fileId with
  | none => none
  | some fileId =>
    if resolution.fileStatus ≠ some .present ∨ resolution.audioSilent then none
    else do
      let identity ← repos.getIdentity event.identityId
      let libraryFile ← repos.getFile fileId
      return (identity, libraryFile)

/-- The whole seconds of a duration, -1 where it is not known. -/
def durationSecs (libraryFile : LibraryFile) : Int :=
  match libraryFile.audio.durationMs with
  | some durationMs => durationMs / 1000
  | none => -1

def extinf (play : BroadcastTrackIdentity × LibraryFile) : String :=
  "#EXTINF:" ++ toString (durationSecs play.2) ++ "," ++ play.1.originalTitle

def pathLine (play : BroadcastTrackIdentity × LibraryFile) : String :=
  (pathRewrite repos).apply play.2.filePath

/-- The lines of one play, or none when it has no playable file. -/
def entry (event : BroadcastPlayEvent) : List String :=
  match playable repos event with
  | none => []
  | some play => [extinf play, pathLine repos play]

def generateM3u (events : List BroadcastPlayEvent) : String :=
  "\n".intercalate ("#EXTM3U" :: events.flatMap (entry repos)) ++ "\n"

end

/-! ## What a player reads -/

def readLines (text : String) : List String := (splitLines text.toList).map String.ofList

/-- A line that names a file: not empty, and no comment. -/
def IsPath (line : String) : Prop := line ≠ "" ∧ line.toList.head? ≠ some '#'

instance (line : String) : Decidable (IsPath line) := by unfold IsPath; infer_instance

/-- The title of an EXTINF line: what follows its first comma. -/
def extinfTitle (line : String) : Option String :=
  if "#EXTINF:".toList.isPrefixOf line.toList then
    some (String.ofList ((line.toList.dropWhile (· ≠ ',')).drop 1))
  else none

/-- Each path with the title of the last EXTINF line before it. -/
def readEntries (title : Option String) : List String → List (Option String × String)
  | [] => []
  | line :: rest =>
    if IsPath line then (title, line) :: readEntries none rest
    else readEntries ((extinfTitle line).or title) rest

end RetroStation.Export

/-! ## What the export reads back as

The lines of the text are those that were written exactly if no title and no path holds a line
break, and each path is one that a player does not take for a comment.
-/

namespace RetroStation.Export

open Library Matching Text

variable (repos : M3uRepos) (events : List BroadcastPlayEvent)

/-- The plays that have a playable file, in order. -/
def playables : List (BroadcastTrackIdentity × LibraryFile) := events.filterMap (playable repos)

/-- The text's lines are the header and two for each playable play, of which the second is a path,
so that a player pairs each path with its own title. -/
def ReadsBack (text : String) : Prop :=
  readLines text =
      "#EXTM3U" :: (playables repos events).flatMap (fun play =>
        [extinf play, pathLine repos play]) ∧
    (∀ play ∈ playables repos events, IsPath (pathLine repos play)) ∧
    readEntries none (readLines text) =
      (playables repos events).map fun play => (some play.1.originalTitle, pathLine repos play)

/-- The text stays on one line. -/
def OneLine (text : String) : Prop := ∀ char ∈ text.toList, isLineBreak char = false

variable {repos events} {play : BroadcastTrackIdentity × LibraryFile}

theorem flatMap_entry : events.flatMap (entry repos) =
    (playables repos events).flatMap fun play => [extinf play, pathLine repos play] := by
  induction events with
  | nil => rfl
  | cons event rest ih =>
      rw [List.flatMap_cons, ih, playables, playables, entry]
      cases hplay : playable repos event with
      | none => rw [List.filterMap_cons_none hplay, List.nil_append]
      | some play => rw [List.filterMap_cons_some hplay, List.flatMap_cons]

/-- Lines joined by line feeds, with one at the end. -/
theorem toList_intercalate_lines (first : String) (rest : List String) :
    ("\n".intercalate (first :: rest) ++ "\n").toList =
      ((first :: rest).map String.toList).flatMap (· ++ ['\n']) := by
  induction rest generalizing first with
  | nil => simp
  | cons second rest ih =>
      rw [String.intercalate_cons_cons, String.append_assoc, String.toList_append, ih]
      simp

theorem isDigit_plain {char : Char} (hdigit : char.isDigit = true) :
    char ≠ ',' ∧ isLineBreak char = false := by
  have hcode : 48 ≤ char.toNat ∧ char.toNat ≤ 57 := by
    simpa [Char.isDigit, UInt32.le_iff_toNat_le] using hdigit
  constructor
  · rintro rfl
    exact absurd hcode.1 (by decide)
  · simp only [isLineBreak, Bool.or_eq_false_iff, Bool.and_eq_false_iff, decide_eq_false_iff_not]
    omega

/-- No sign of a duration is a comma or a line break. -/
theorem toString_int_plain (number : Int) :
    ∀ char ∈ (toString number).toList, char ≠ ',' ∧ isLineBreak char = false := by
  have hnat : ∀ (number : Nat), ∀ char ∈ (toString number).toList,
      char ≠ ',' ∧ isLineBreak char = false := by
    intro number char hchar
    rw [Nat.toString_eq_repr, Nat.toList_repr] at hchar
    exact isDigit_plain (Nat.isDigit_of_mem_toDigits (by decide) (by decide) hchar)
  cases number with
  | ofNat number => exact hnat number
  | negSucc number =>
    intro char hchar
    have hsign : (toString (Int.negSucc number)).toList =
      '-' :: (toString (number + 1)).toList := by
      change ("-" ++ toString (number + 1)).toList = _
      rw [String.toList_append]
      rfl
    rw [hsign, List.mem_cons] at hchar
    rcases hchar with rfl | hchar
    · exact ⟨by decide, by decide⟩
    · exact hnat _ char hchar

theorem extinf_oneLine : OneLine (extinf play) ↔ OneLine play.1.originalTitle := by
  have hhead : ∀ char ∈ "#EXTINF:".toList, isLineBreak char = false := by
    have hall : "#EXTINF:".toList.all (fun char => !isLineBreak char) = true := by decide
    simpa using hall
  unfold OneLine extinf
  simp only [String.toList_append, List.mem_append]
  constructor
  · exact fun hall char hchar => hall char (.inr hchar)
  · rintro htitle char (((hchar | hchar) | hchar) | hchar)
    · exact hhead char hchar
    · exact (toString_int_plain _ char hchar).2
    · rw [List.mem_singleton.mp hchar]
      decide
    · exact htitle char hchar

/-- An EXTINF line carries its title, whatever commas that has. -/
theorem extinfTitle_extinf : extinfTitle (extinf play) = some play.1.originalTitle := by
  have hlist : (extinf play).toList = "#EXTINF:".toList ++
      ((toString (durationSecs play.2)).toList ++ ',' :: play.1.originalTitle.toList) := by
    simp [extinf, String.toList_append]
  have hbefore : ∀ char ∈ "#EXTINF:".toList ++ (toString (durationSecs play.2)).toList,
      decide (char ≠ ',') = true := by
    intro char hchar
    rcases List.mem_append.mp hchar with hhead | hsecs
    · have hall : "#EXTINF:".toList.all (fun char => decide (char ≠ ',')) = true := by decide
      exact List.all_eq_true.mp hall char hhead
    · exact decide_eq_true (toString_int_plain _ char hsecs).1
  rw [extinfTitle, hlist, if_pos (List.isPrefixOf_iff_prefix.mpr (List.prefix_append _ _)),
    ← List.append_assoc, List.dropWhile_append_of_pos hbefore]
  simp

theorem not_isPath_extinf : ¬ IsPath (extinf play) := by
  intro hpath
  apply hpath.2
  simp [extinf, String.toList_append]

/-- A player reads each path with its own title. -/
theorem readEntries_plays {plays : List (BroadcastTrackIdentity × LibraryFile)}
    (hpaths : ∀ play ∈ plays, IsPath (pathLine repos play)) :
    readEntries none (plays.flatMap fun play => [extinf play, pathLine repos play]) =
      plays.map fun play => (some play.1.originalTitle, pathLine repos play) := by
  induction plays with
  | nil => rfl
  | cons play rest ih =>
      have hrest := ih fun other hother => hpaths other (List.mem_cons_of_mem _ hother)
      rw [List.flatMap_cons, List.cons_append, List.singleton_append, readEntries,
        if_neg not_isPath_extinf, extinfTitle_extinf, Option.some_or, readEntries,
        if_pos (hpaths play List.mem_cons_self), hrest, List.map_cons]

/-- The text reads back exactly if no playable play's title or path holds a line break, and no
path is empty or begins as a comment does. -/
theorem generateM3u_reads_back (repos : M3uRepos) (events : List BroadcastPlayEvent) :
    ReadsBack repos events (generateM3u repos events) ↔
      ∀ play ∈ playables repos events, OneLine play.1.originalTitle ∧
        OneLine (pathLine repos play) ∧ IsPath (pathLine repos play) := by
  have htext : (generateM3u repos events).toList = (("#EXTM3U" ::
      (playables repos events).flatMap fun play => [extinf play, pathLine repos play]).map
        String.toList).flatMap (· ++ ['\n']) := by
    rw [generateM3u, flatMap_entry, toList_intercalate_lines]
  constructor
  · rintro ⟨hlines, hpaths, -⟩ play hplay
    have hwhole : ∀ line ∈ [extinf play, pathLine repos play], OneLine line := by
      intro line hline
      have hmem : line ∈ readLines (generateM3u repos events) := by
        rw [hlines]
        exact List.mem_cons_of_mem _ (List.mem_flatMap.mpr ⟨play, hplay, hline⟩)
      obtain ⟨part, hpart, rfl⟩ := List.mem_map.mp hmem
      rw [OneLine, String.toList_ofList]
      exact mem_splitLines part hpart
    exact ⟨extinf_oneLine.mp (hwhole _ (by simp)), hwhole _ (by simp), hpaths play hplay⟩
  · intro hplays
    have hwhole : ∀ line ∈ ("#EXTM3U" :: (playables repos events).flatMap fun play =>
        [extinf play, pathLine repos play]).map String.toList,
        ∀ char ∈ line, isLineBreak char = false := by
      intro line hline
      obtain ⟨text, htext, rfl⟩ := List.mem_map.mp hline
      rcases List.mem_cons.mp htext with rfl | hrest
      · have hall : "#EXTM3U".toList.all (fun char => !isLineBreak char) = true := by decide
        simpa using hall
      · obtain ⟨play, hplay, hmem⟩ := List.mem_flatMap.mp hrest
        rcases List.mem_cons.mp hmem with rfl | hpath
        · exact extinf_oneLine.mpr (hplays play hplay).1
        · rw [List.mem_singleton.mp hpath]
          exact (hplays play hplay).2.1
    -- No line holds a line break, so the text splits back into exactly these lines.
    have hlines : readLines (generateM3u repos events) = "#EXTM3U" ::
        (playables repos events).flatMap fun play => [extinf play, pathLine repos play] := by
      rw [readLines, htext, splitLines_flatMap hwhole, List.map_map]
      simp [Function.comp_def]
    have hpaths : ∀ play ∈ playables repos events, IsPath (pathLine repos play) :=
      fun play hplay => (hplays play hplay).2.2
    refine ⟨hlines, hpaths, ?_⟩
    rw [hlines, readEntries, if_neg (by decide), ← readEntries_plays hpaths]
    rfl

/-- A quoted title on two lines. -/
def twoLineCsv : String :=
  "Artist,Title,Played\nGuess Who,\"No Time\n(Live)\",1973-07-01 12:00:00\n"

def twoLineTitle : String := "No Time\n(Live)"

def twoLineRepos : M3uRepos where
  getForPlay _ := { fileId := some 1, fileStatus := some .present }
  getIdentity id := some {
    id
    broadcastArtistId := 1
    originalTitle := twoLineTitle
    normalizedSignature := "no time" }
  getFile id := some { id, filePath := "/music/no-time.flac" }
  getSetting _ := none

theorem generateM3u_twoLineTitle :
    (Ingestion.csvRows twoLineCsv).map (fun row =>
        (Ingestion.extractIngestibleRow (Ingestion.dictRow
          ((Ingestion.fieldnames twoLineCsv).getD []) row)).toOption.bind (·.get? "Title")) =
      [some twoLineTitle] ∧
      ¬ ReadsBack twoLineRepos [⟨1, 1⟩] (generateM3u twoLineRepos [⟨1, 1⟩]) := by
  refine ⟨by decide +kernel, ?_⟩
  rintro ⟨hlines, -⟩
  revert hlines
  decide +kernel

end RetroStation.Export
