import Runex.Lib.Text
import Runex.Lib.Search
import Runex.Domain.Sanitize
import Runex.Domain.Model
import Runex.Domain.Shell
import Runex.Domain.Expand
import Runex.Domain.Expand.Rendering
import Runex.Domain.Expand.Which
import Runex.Domain.Expand.Selection
import Runex.Domain.Expand.Glob
import Runex.Domain.Expand.Captures
import Runex.Domain.Expand.Blankness
import Runex.Domain.Expand.Number
import Runex.Domain.Expand.Placeholder
import Runex.Domain.Hook
import Runex.Domain.Hook.CommandPosition
import Runex.Domain.Hook.Decision
import Runex.App.Hook
import Runex.Lib.Visitor
import Runex.Lib.TakeWithin
import Runex.Lib.Memo
import Runex.Util.Path
import Runex.Lib.Placeholder
import Runex.Lib.Placeholder.InTurn
import Runex.Lib.Placeholder.Cut
import Runex.App.Templates
import Runex.App.BashStaticDispatcher
import Runex.App.ShellExport
import Runex.App.BashStaticDispatcher.Rows
import Runex.Lib.BashArray
import Runex.App.BashStaticDispatcher.Tables
import Runex.App.BashStaticDispatcher.ExecPath
import Runex.App.ShellExport.Quoting
import Runex.App.ShellExport.Texts
import Runex.App.ShellExport.Substitution
import Runex.App.Config
import Runex.App.Config.Issues
import Runex.App.Config.WalkOrder
import Runex.App.Config.Fallbacks
import Runex.App.Config.NumberKeys
import Runex.App.Doctor
import Runex.App.Doctor.SelfLoop
import Runex.App.Doctor.Unreachable
import Runex.Lib.EditDistance
import Runex.App.Doctor.Suggest
import Runex.Cmd.Hook
import Runex.App.Hook.EvalText
import Runex.App.Hook.HexLine
import Runex.App.Hook.Cursors
import Runex.Cmd.Hook.KeystrokeEdit
import Runex.Lib.FileSystem
import Runex.Lib.Toml
import Runex.Infra.ConfigStore
import Runex.App.Config.Files
import Runex.Lib.Toml.Lines
import Runex.App.Config.PlainReader
import Runex.App.Config.Add
import Runex.Lib.Toml.Notation
import Runex.Lib.Toml.Path
import Runex.Lib.Serde
import Runex.App.Config.Deserialize
import Runex.App.Doctor.UnknownFields
import Runex.App.Config.AddedBlock
import Runex.App.Config.Remove
import Runex.Lib.Process
import Runex.Lib.FileStore
import Runex.Infra.AtomicWrite
import Runex.App.Config.Display
import Runex.Infra.ConfigStore.Stepwise
import Runex.Infra.IntegrationCache
import Runex.Cmd.Init
import Runex.Infra.AtomicWrite.SingleWriter
import Runex.Infra.AtomicWrite.Alone
import Runex.Cmd.Config
import Runex.Cmd.Config.Reload
import Runex.Infra.AtomicWrite.Concurrent
import Runex.Lib.Loop
import Runex.Lib.ShellPattern
import Runex.Domain.Integration.Literals
import Runex.Lib.Lines
import Runex.App.ShellExport.Opening
import Runex.Infra.IntegrationCheck
import Runex.Infra.IntegrationCheck.Header
import Runex.App.Precache
import Runex.App.Precache.Resolved
import Runex.App.Precache.Json
import Runex.App.Precache.HandOff
import Runex.Lib.AppendOnce
import Runex.Cmd.Init.RcFile
import Runex.Cmd.Init.Install
import Runex.Cmd.Init.Idempotent
import Runex.App.ShellExport.Embedded
import Runex.Lib.EntryList
import Runex.Lib.Asking
import Runex.Domain.Expand.Questions
import Runex.Domain.Timings
import Runex.Cmd.Timings
import Runex.Domain.Expand.Provenance
import Runex.Cmd.Hook.Widgets
import Runex.Cmd.Hook.Session
import Runex.Cmd.Hook.AcrossShells
import Runex.Cmd.Hook.GitBash
import Runex.Main
import Runex.Cmd.Precache.Session
import Runex.Infra.WinPath
import Runex.Infra.WinPath.Cap
import Runex.Infra.WinPath.Merge
import Runex.App.Config.Edits
import Runex.Cmd.AddRemove
import Runex.Lib.FileStore.Links
import Runex.App.Config.Loaded
import Runex.Cmd.AddRemove.Maintenance
import Runex.Lib.Lines.Split
import Runex.Infra.IntegrationCheck.RcFile
import Runex.Infra.IntegrationCheck.Probe
import Runex.Cmd.Init.Doctor
import Runex.Cmd.Init.Clink
import Runex.Domain.Sanitize.Display
import Runex.App.Doctor.Report
import Runex.App.Doctor.Advice
import Runex.App.ShellAliasConflicts
import Runex.Cmd.Doctor
import Runex.App.Doctor.Commands
import Runex.Cmd.Which
import Runex.Cmd.Export
