import RetroStation.Dict.Basic
import RetroStation.Library.Values
import RetroStation.Text.Unicode

/-! # Linking local artists by their files' tags

A local artist is linked to the MusicBrainz artist that its files are tagged with, if the names
agree. A tag value may credit several artists.
-/

namespace RetroStation.Matching

open Library (truthy)

/-! ## MBIDs in tag values -/

def isHexDigit (char : Char) : Bool :=
  char.isDigit || "abcdefABCDEF".toList.contains char

/-- Whether the text is five groups of hexadecimal digits with a hyphen between them. -/
def isMbid (raw : String) : Bool :=
  raw.toList.length = 36 && raw.toList.zipIdx.all fun (char, index) =>
    if index ∈ [8, 13, 18, 23] then char = '-' else isHexDigit char

/-- A well-formed MusicBrainz identifier; it may still not exist there. -/
@[ext]
structure MusicBrainzId where
  value : String
  wellFormed : isMbid value = true

instance : DecidableEq MusicBrainzId := fun first second =>
  decidable_of_iff (first.value = second.value) MusicBrainzId.ext_iff.symm

def parseMbid (raw : String) : Option MusicBrainzId :=
  if hraw : isMbid raw = true then some ⟨raw, hraw⟩ else none

/-- The letters of an MBID in lower case. -/
def lowerMbid (text : String) : String := String.ofList (text.toList.map Char.toLower)

/-- The parts of a tag value, between its separators. -/
def tagParts (value : String) : List String :=
  (value.toList.splitOnP fun char => char = ',' || char = ';' || char = '/').map String.ofList

/-- The well-formed MBIDs in a tag value, in their order. -/
def mbidsOf (value : String) : List MusicBrainzId :=
  (tagParts value).filterMap fun part => parseMbid (lowerMbid (Text.stripText part))

/-- The MBID with more files first, then by the MBID itself. -/
def RankedBefore (count : MusicBrainzId → Nat) (first second : MusicBrainzId) : Prop :=
  count second < count first ∨ count first = count second ∧ first.value ≤ second.value

instance (count : MusicBrainzId → Nat) : DecidableRel (RankedBefore count) := fun first second =>
  inferInstanceAs (Decidable (count second < count first ∨ _))

/-- The totals with a value's files added for each MBID that it holds. -/
def addTag (totals : Dict MusicBrainzId Nat) (tag : String × Nat) : Dict MusicBrainzId Nat :=
  (mbidsOf tag.1).foldl (fun totals mbid =>
    totals.set mbid ((totals.get? mbid).getD 0 + tag.2)) totals

/-- `tag_mbids`: the MBIDs in the tag values, those with the greatest totals first. -/
def tagMbids (tagCounts : List (String × Nat)) : List MusicBrainzId :=
  let totals := tagCounts.foldl addTag .empty
  totals.keys.insertionSort (RankedBefore fun mbid => (totals.get? mbid).getD 0)

/-! ## Deciding a link -/

/-- Tagged MBIDs looked up per artist. -/
def MAX_TAG_MBIDS : Nat := 3

/-- The artists of MusicBrainz that stand for no performer. -/
def SPECIAL_PURPOSE_MBIDS : List String :=
  ["89ad4ac3-39f7-470e-963a-56509c546377", "125ec42a-7229-4250-afc5-e057484327fe",
    "eec63d3c-3b81-4ad4-b1e4-7c147d4d2b61", "314e1c25-dde7-4e4d-b2f4-0a7b9f7c56dc",
    "f731ccc4-e22a-43af-a747-64213329e088", "9be7f096-97ec-4615-8957-8d40b5dcbc41",
    "33cf029c-63b0-41a0-9855-be2a3665fb3b", "a0ef7e1d-44ff-4039-9435-7d5fefdeecc9",
    "80a8851f-444c-4539-892b-ad2a49292aa9", "66ea0139-149f-4a0c-8fbf-5ea9ec4a6e49",
    "90068d37-bae7-4292-be4a-704c145bd616", "7e84f845-ac16-41fe-9ff8-df12eb32af55"]

def isSpecialPurpose (mbid : MusicBrainzId) : Bool :=
  SPECIAL_PURPOSE_MBIDS.contains mbid.value

/-- An artist as MusicBrainz answers with it. -/
structure MbArtist where
  id : Option String
  name : Option String
  sortName : Option String := none
  disambiguation : Option String := none
  deriving DecidableEq, Repr

/-- The artist that an answer is about: a merged MBID is answered with the surviving one. -/
def MbArtist.foundAs (data : MbArtist) (asked : MusicBrainzId) : Option MusicBrainzId :=
  parseMbid (lowerMbid ((truthy data.id).getD asked.value))

/-- What MusicBrainz answers for an MBID. It answers alike whenever it answers with one artist. -/
structure MusicBrainz where
  lookupArtist : MusicBrainzId → Option MbArtist
  one_artist {first second found : MusicBrainzId} {data data' : MbArtist} :
    lookupArtist first = some data → lookupArtist second = some data' →
      data.foundAs first = some found → data'.foundAs second = some found → data' = data

structure ArtistLinkCandidate where
  mbid : MusicBrainzId
  name : String
  sortName : String
  disambiguation : Option String

/-- The decision for one artist: it has a candidate exactly when it is a link. -/
inductive LinkDecision
  | linked (candidate : ArtistLinkCandidate)
  | ambiguous
  | tagMismatch
  | specialPurpose
  | noEvidence

/-- A placeholder's name is in brackets. -/
def isPlaceholderName (name : String) : Bool :=
  name.toList.head? = some '[' && name.toList.getLast? = some ']'

/-- What a lookup says of the artist that is to be linked. -/
inductive TagAnswer
  | skipped
  | placeholder
  | named (candidate : ArtistLinkCandidate)

section

variable (normalizeArtist : String → String) (musicBrainz : MusicBrainz) (normalizedName : String)

/-- What MusicBrainz answers for one tagged MBID. -/
def answerFor (mbid : MusicBrainzId) : TagAnswer :=
  match musicBrainz.lookupArtist mbid with
  | none => .skipped
  | some data =>
    let name := data.name.getD ""
    if isPlaceholderName name then .placeholder
    else
      match data.foundAs mbid with
      | none => .skipped
      | some found =>
        -- a tag merged into a placeholder artist stays local
        if isSpecialPurpose found then .placeholder
        else if normalizeArtist name ≠ normalizedName then .skipped
        else .named {
          mbid := found
          name := name
          sortName := (truthy data.sortName).getD name
          disambiguation := truthy data.disambiguation }

/-- The artists named so far, and how many placeholders there were. -/
def addAnswer (found : Dict MusicBrainzId ArtistLinkCandidate × Nat) (mbid : MusicBrainzId) :
    Dict MusicBrainzId ArtistLinkCandidate × Nat :=
  match answerFor normalizeArtist musicBrainz normalizedName mbid with
  | .skipped => found
  | .placeholder => (found.1, found.2 + 1)
  | .named candidate =>
    (if (found.1.get? candidate.mbid).isSome then found.1
      else found.1.set candidate.mbid candidate, found.2)

/-- The decision that the artists looked up lead to. -/
def decideLookedUp (lookedUp : List MusicBrainzId) : LinkDecision :=
  let (named, placeholders) :=
    lookedUp.foldl (addAnswer normalizeArtist musicBrainz normalizedName) (.empty, 0)
  match named.values with
  | [candidate] => .linked candidate
  | _ :: _ :: _ => .ambiguous
  | [] => if placeholders = lookedUp.length then .specialPurpose else .tagMismatch

/-- The tagged MBIDs that are no placeholders. -/
def realMbids (tagged : List MusicBrainzId) : List MusicBrainzId :=
  tagged.filter fun mbid => !isSpecialPurpose mbid

/-- `decide_link`: which tagged MusicBrainz artist, if any, the local artist is. -/
def decideLink (tagCounts : List (String × Nat)) : LinkDecision :=
  let tagged := tagMbids tagCounts
  if normalizedName = "" ∨ tagged = [] then .noEvidence
  else
    let real := realMbids tagged
    if real = [] then .specialPurpose
    else decideLookedUp normalizeArtist musicBrainz normalizedName (real.take MAX_TAG_MBIDS)

end

end RetroStation.Matching
