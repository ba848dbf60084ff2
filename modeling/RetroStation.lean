import RetroStation.Player.Deadline
import RetroStation.Streaming.NoLeak
import RetroStation.Streaming.ClockPlacement
import RetroStation.Streaming.TimeAway
import RetroStation.Streaming.SignOffStore
import RetroStation.Streaming.LinerStore
import RetroStation.Matching.SongRows
import RetroStation.Matching.Rejections
import RetroStation.Matching.ArtistRows
import RetroStation.Matching.RejectedArtist
import RetroStation.Matching.Interleaving
import RetroStation.Matching.RunProgress
import RetroStation.Matching.PreCheck
import RetroStation.Matching.Alone
import RetroStation.Library.Measured
import RetroStation.Curation.Overrides
import RetroStation.Database.PlayCounts
import RetroStation.Enrichment.PassOrder
import RetroStation.Cues.Twins
import RetroStation.Playout.CacheEnds
import RetroStation.Playout.EngineRuns
import RetroStation.Playout.SessionRuns
import RetroStation.Streaming.LinerRotation
import RetroStation.Streaming.SentSpans
import RetroStation.Streaming.LinerPlace
import RetroStation.Streaming.FeedAccounts
import RetroStation.Library.ScanIsolates
import RetroStation.Grouping.PartsApart
import RetroStation.Playout.IcyFramer
import RetroStation.Matching.ScoreBands
import RetroStation.Matching.CoalescedSearch
import RetroStation.Normalization.CanonicalForm
import RetroStation.Curation.Duplicates
import RetroStation.Normalization.StrippedTitles
import RetroStation.Streaming.MarkerPlacement
import RetroStation.Audio.FrameDuration
import RetroStation.Cues.BatchReading
import RetroStation.Enrichment.UntaggedFiles
import RetroStation.Export.M3u
import RetroStation.Audio.ScanBudget
import RetroStation.Grouping.PartSpelling
import RetroStation.Library.FolderPaths
import RetroStation.Streaming.LinerCues
import RetroStation.Library.CaseDuplicates
import RetroStation.Matching.LinkedByTags
import RetroStation.Cues.Storable
import RetroStation.Curation.MergedWorks
import RetroStation.Ingestion.RowAccounts
import RetroStation.Progress.Feeds
import RetroStation.Progress.Retention
import RetroStation.Ingestion.IngestOutcome
