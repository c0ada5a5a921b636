import JtermCore.CommandHistory.Appended
import JtermCore.KittyGraphics.Decoding
import JtermCore.KittyGraphics.Reassembly
import JtermCore.ExecutionJournal.Retention
import JtermCore.StreamParser.Filter
import JtermCore.StreamParser.GroundText
import JtermCore.StreamParser.CommandFields
import JtermCore.StreamParser.Modes
import JtermCore.ScreenReplay.SgrRoundTrip
import JtermCore.ScreenReplay.PrintRuns
import JtermCore.ScreenReplay.ScrollEdit
import JtermCore.ScreenReplay.Invisible
import JtermCore.PtyInput.Transparent
import JtermCore.Tasks.Hiding
import JtermCore.Tasks.Streams
import JtermCore.Attention.Policy
import JtermCore.Watch.Exact
import JtermCore.Search.Composition
import JtermCore.SessionHost.Attachment
import JtermCore.OutputCompare.Faithful
import JtermCore.OrganismClock.WindowLife
import JtermCore.ExecutionJournal.ReadBack
import JtermCore.ExecutionJournal.LineBound
import JtermCore.PaneLayout.Preservation
import JtermCore.CommandCorrection.Edited
import JtermCore.OrganismMemory.Invisible
import JtermCore.Workspace.Frames
import JtermCore.Workspace.Snippet
import JtermCore.Workspace.Orderly
import JtermCore.Workspace.Evidence
import JtermCore.Vim9Render.Delta
import JtermCore.ClickCursor
import JtermCore.Usage.Reports
import JtermCore.CommandCorrection.Ranking
import JtermCore.Workspace.NoLostUpdates
import JtermCore.Vim9Render.Bounds
import JtermCore.GitMeta
