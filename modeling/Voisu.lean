import Voisu.Arbitration.Alignment
import Voisu.Arbitration.Arbitrate
import Voisu.Arbitration.Flips
import Voisu.Arbitration.Regions
import Voisu.Baseline.Casing
import Voisu.Baseline.Cues
import Voisu.Baseline.Tokens
import Voisu.Capture.Delivery
import Voisu.Capture.Scan
import Voisu.Capture.Stream
import Voisu.Capture.Wav
import Voisu.Commands.Match
import Voisu.Commands.Parse
import Voisu.Commands.Tiling
import Voisu.Compose.Atoms
import Voisu.Compose.Candidate
import Voisu.Compose.Conservation
import Voisu.Compose.Gate
import Voisu.Compose.Lexical
import Voisu.Compose.Licence
import Voisu.Compose.Loop
import Voisu.Compose.Occurrences
import Voisu.Compose.Panics
import Voisu.Compose.Placement
import Voisu.Compose.Seams
import Voisu.Compose.Walk
import Voisu.Config.Document
import Voisu.Config.EngineChoice
import Voisu.Config.Merge
import Voisu.Config.Recovery
import Voisu.Config.Setters
import Voisu.Coordinator
import Voisu.Credentials.File
import Voisu.Credentials.Lines
import Voisu.Credentials.Store
import Voisu.Daemon.Accounts
import Voisu.Daemon.Actor
import Voisu.Daemon.Announcements
import Voisu.Daemon.Exits
import Voisu.Daemon.Handlers
import Voisu.Daemon.Messages
import Voisu.Daemon.Overlay
import Voisu.Daemon.Supervision
import Voisu.Decision.Correction
import Voisu.Decision.Matching
import Voisu.Decision.Neutrality
import Voisu.Decision.Outros
import Voisu.Decision.Pipeline
import Voisu.Decision.Quality
import Voisu.Decision.Selection
import Voisu.Decision.Wordless
import Voisu.Decision.Words
import Voisu.Deepgram.Delivery
import Voisu.Deepgram.Endpoint
import Voisu.Deepgram.Messages
import Voisu.Deepgram.Stream
import Voisu.Delivery.Portal
import Voisu.Diagnostics.Export
import Voisu.Diagnostics.Passes
import Voisu.Diagnostics.Record
import Voisu.Diagnostics.Scrubbing
import Voisu.Diagnostics.Secrecy
import Voisu.Diagnostics.Store
import Voisu.Diagnostics.Urls
import Voisu.Dictation.Numerals
import Voisu.Dictation.Range
import Voisu.Dictation.Readings
import Voisu.Dictation.Rewrite
import Voisu.Dictation.Spans
import Voisu.Dictation.Whole
import Voisu.Dictation.Words
import Voisu.Dictionary
import Voisu.Fingerprint
import Voisu.FormatEdits.Compose
import Voisu.FormatEdits.Contract
import Voisu.Formatting.Anchors
import Voisu.Formatting.Baseline
import Voisu.Formatting.Conservation
import Voisu.Formatting.Finish
import Voisu.Formatting.Layout
import Voisu.Formatting.Letters
import Voisu.Formatting.Protection
import Voisu.Formatting.Provenance
import Voisu.Formatting.Smart
import Voisu.Formatting.Structure
import Voisu.Formatting.Tokens
import Voisu.Formatting.WordCount
import Voisu.Grammar.Candidate
import Voisu.Grammar.Review
import Voisu.Grammar.Safety
import Voisu.Groq.Attribution
import Voisu.Groq.Blocks
import Voisu.Groq.Curl
import Voisu.Groq.Merge
import Voisu.Groq.Windows
import Voisu.HistoryView.Render
import Voisu.HistoryView.Terminal
import Voisu.Hyprland.Bindings
import Voisu.Hyprland.Chunks
import Voisu.Hyprland.Files
import Voisu.Hyprland.Imports
import Voisu.Hyprland.Install
import Voisu.Hyprland.Lexemes
import Voisu.Hyprland.Lua
import Voisu.Hyprland.Managed
import Voisu.Hyprland.Occupancy
import Voisu.Hyprland.PasteAction
import Voisu.Hyprland.Planning
import Voisu.Hyprland.Regions
import Voisu.Hyprland.Shortcuts
import Voisu.Hyprland.Verified
import Voisu.Hyprland.Walks
import Voisu.Journal
import Voisu.Json
import Voisu.Lib.Atoms
import Voisu.Lib.Buffered
import Voisu.Lib.Casing
import Voisu.Lib.Chars
import Voisu.Lib.Crash
import Voisu.Lib.Curl
import Voisu.Lib.Except
import Voisu.Lib.F64
import Voisu.Lib.FileTree
import Voisu.Lib.Files
import Voisu.Lib.Letters
import Voisu.Lib.Levenshtein
import Voisu.Lib.Lines
import Voisu.Lib.Log
import Voisu.Lib.Lowercase
import Voisu.Lib.Offsets
import Voisu.Lib.Query
import Voisu.Lib.Reads
import Voisu.Lib.Realign
import Voisu.Lib.Rounding
import Voisu.Lib.Runs
import Voisu.Lib.Scan
import Voisu.Lib.Seams
import Voisu.Lib.Splice
import Voisu.Lib.Strings
import Voisu.Lib.Substrings
import Voisu.Lib.Traverse
import Voisu.Lib.U32
import Voisu.Lib.Unicode
import Voisu.Lib.Windows
import Voisu.LocalGate
import Voisu.LocalModel.Active
import Voisu.LocalModel.Candidate
import Voisu.LocalModel.Fetch
import Voisu.LocalModel.Installer
import Voisu.LocalModel.Receipt
import Voisu.LocalModel.Redirects
import Voisu.LocalModel.Runs
import Voisu.LocalModel.Store
import Voisu.LocalModel.Touch
import Voisu.LocalTail
import Voisu.LocalWorker.Framing
import Voisu.LocalWorker.Moves
import Voisu.LocalWorker.Runs
import Voisu.LocalWorker.Supervisor
import Voisu.Provider
import Voisu.Recovery.Artifact
import Voisu.Recovery.Calls
import Voisu.Recovery.Invariant
import Voisu.Recovery.Runs
import Voisu.Recovery.Store
import Voisu.SmartWriting
import Voisu.TranscriptQuality
import Voisu.Tui.Wrap
import Voisu.Url
import Voisu.Vocabulary
import Voisu.Vocabulary.Words
import Voisu.WindowsApp.Cancel
import Voisu.WindowsApp.Chord
import Voisu.WindowsApp.ChordRuns
import Voisu.WindowsApp.Engine
import Voisu.WindowsApp.Gesture
import Voisu.WindowsApp.HalfKeys
import Voisu.WindowsApp.Preview
import Voisu.WindowsApp.Resampled
import Voisu.WindowsApp.Resampler
import Voisu.WindowsApp.Runs
