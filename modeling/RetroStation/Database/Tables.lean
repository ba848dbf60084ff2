import RetroStation.Matching.Engines
import RetroStation.Table.Basic

/-! # The database

The tables that matching and curation share, with the statements that their
repositories make on songs, artists and match rows.
-/

namespace RetroStation

open Library Matching

/-- A song on the air: a playlist played a track identity. -/
structure PlayEvent where
  playlistId : Uuid
  identityId : Uuid
  deriving DecidableEq, Repr

/-- A composition; what files, recordings and masters belong to. -/
structure Work where
  id : String
  title : String := ""
  artistId : String := ""
  mbid : Option String := none
  deriving DecidableEq, Repr

inductive VersionType
  | original
  | live
  | remaster
  | remix
  | radioEdit
  | demo
  | acoustic
  | extended
  | instrumental
  | explicit
  | clean
  | cover
  | edition
  | alternate
  | aCappella
  | format
  | unknown
  | other
  deriving DecidableEq, Repr

structure Recording where
  id : String
  title : String := ""
  workId : Option String := none
  durationMs : Option Int := none
  versionType : VersionType := .original
  deriving DecidableEq, Repr

inductive SelectionMethod
  | auto
  | manual
  deriving DecidableEq, Repr

/-- A work's chosen file. -/
structure SongMaster where
  workId : String
  preferredFileId : Uuid
  selectionMethod : SelectionMethod
  score : Option Int := none
  deriving DecidableEq, Repr

/-- A work's chosen file for one format. -/
structure FormatOverride where
  id : Uuid
  workId : String
  formatName : String
  preferredFileId : Uuid
  createdAt : Int := 0
  deriving DecidableEq, Repr

structure Database where
  artists : List BroadcastArtist := []
  identities : List BroadcastTrackIdentity := []
  plays : List PlayEvent := []
  matchRows : List Match := []
  rules : List MappingRule := []
  catalog : List CatalogArtist := []
  files : List LibraryFile := []
  works : List Work := []
  recordings : List Recording := []
  songMasters : List SongMaster := []
  formatOverrides : List FormatOverride := []
  deriving DecidableEq, Repr

namespace Database

variable (db : Database)

/-! ## Songs -/

def getIdentity (identityId : Uuid) : Option BroadcastTrackIdentity :=
  db.identities.find? fun song => song.id = identityId

/-- The songs of the playlist that are pending, whatever their artist's status. -/
def getPendingForPlaylist (playlistId : Uuid) : List BroadcastTrackIdentity :=
  db.identities.filter fun song =>
    song.matchStatus = .pending ∧
      db.plays.any fun play => play.identityId = song.id ∧ play.playlistId = playlistId

/-- What a decision writes on a song. -/
structure SongDecision where
  status : MatchStatus
  tier : Option MatchTier
  reasonCode : Option ReasonCode := none
  reasonDetail : Option String := none

def SongDecision.write (decision : SongDecision) (song : BroadcastTrackIdentity) :
    BroadcastTrackIdentity :=
  { song with
    matchStatus := decision.status
    matchTier := decision.tier
    reasonCode := decision.reasonCode
    reasonDetail := decision.reasonDetail }

/-- One UPDATE of the songs that satisfy `which`. -/
def updateSongs (which : BroadcastTrackIdentity → Bool) (decision : SongDecision) : Database :=
  { db with identities := Table.update db.identities which decision.write }

def updateMatchStatus (identityId : Uuid) (decision : SongDecision) : Database :=
  db.updateSongs (fun song => song.id = identityId) decision

/-- One statement: the song is decided if it is still pending; whether it was. -/
def updateMatchStatusIfPending (identityId : Uuid) (decision : SongDecision) : Bool × Database :=
  let pending := fun song : BroadcastTrackIdentity =>
    decide (song.id = identityId ∧ song.matchStatus = .pending)
  (db.identities.any pending, db.updateSongs pending decision)

/-! ## Match rows -/

def rowsOf (identityId : Uuid) : List Match :=
  db.matchRows.filter fun row => row.subject = .identity identityId

def artistRows (artistId : Uuid) : List Match :=
  db.matchRows.filter fun row => row.subject = .artist artistId

def deleteForIdentity (identityId : Uuid) : Database :=
  { db with matchRows := Table.delete db.matchRows fun row => row.subject = .identity identityId }

/-- An empty work id is stored as none. -/
def createMatch (row : Match) : Database :=
  { db with matchRows := db.matchRows ++ [{ row with workId := truthy row.workId }] }

/-! ## Files -/

def HasFile (fileId : Uuid) : Prop := ∃ file ∈ db.files, file.id = fileId

/-! ## Artists -/

def getArtist (artistId : Uuid) : Option BroadcastArtist :=
  db.artists.find? fun artist => artist.id = artistId

def getArtistsByIds (artistIds : List Uuid) : List BroadcastArtist :=
  db.artists.filter fun artist => artist.id ∈ artistIds

/-! ## What song matching reads -/

/-- The rules by priority, the highest first. -/
def listOrderedRules : List MappingRule :=
  db.rules.insertionSort fun first second => second.priority ≤ first.priority

def identityMatchingRepos : IdentityMatchingRepos where
  rules := db.listOrderedRules
  files := db.files
  matchRows := db.matchRows
  catalog := db.catalog

end Database

end RetroStation
