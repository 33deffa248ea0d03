import AppShell.Calendar.Date
import AppShell.Calendar.Format
import AppShell.Calendar.Instant
import AppShell.Calendar.Timestamp
import AppShell.Consent
import AppShell.Decimal.Binary64
import AppShell.Decimal.Shortest
import AppShell.Failure.ApiError
import AppShell.Failure.Basic
import AppShell.Failure.ErrorValue
import AppShell.Failure.Reader
import AppShell.Failure.Report
import AppShell.Host.Address
import AppShell.Host.Asset
import AppShell.Host.Config
import AppShell.Host.Cookie
import AppShell.Host.Routes
import AppShell.Host.Target
import AppShell.Host.Token
import AppShell.Ids
import AppShell.Json.Basic
import AppShell.Json.Fault
import AppShell.Json.Number
import AppShell.Json.Printer
import AppShell.Json.Reader
import AppShell.Json.Skip
import AppShell.Json.Text
import AppShell.Listeners
import AppShell.Markup.Node
import AppShell.Notifications.Message
import AppShell.Notifications.Queue
import AppShell.Panel
import AppShell.Preferences.Basic
import AppShell.Preferences.Decode
import AppShell.Preferences.Theme
import AppShell.Preferences.Tiles
import AppShell.Revision
import AppShell.Scenario.Perform
import AppShell.Scenario.Reader
import AppShell.Scenario.Run
import AppShell.Scenario.Step
import AppShell.Scenario.Transcript
import AppShell.Shell.Basic
import AppShell.Shell.Lifetime
import AppShell.Shell.Notifications
import AppShell.Shell.Outcome
import AppShell.Shell.Panels
import AppShell.Shell.Storage
import AppShell.Storage.Memory
import AppShell.Storage.Store
import AppShell.Text.Alphanumeric
import AppShell.Text.Blank
import AppShell.Text.Hex
import AppShell.Text.Percent
import AppShell.Text.Pieces
import AppShell.Text.Quoted
import AppShell.View.NotificationBar
import AppShell.View.Page
import AppShell.View.PreferencesPanel
import AppShell.View.ToolsPanel
import AppShell.Proofs.Listeners
import AppShell.Proofs.Storage.History
import AppShell.Proofs.Storage.Quiet
import AppShell.Proofs.Storage.Refinement
import AppShell.Proofs.Storage.Tables
import AppShell.Proofs.Storage.Wiring
import AppShell.Proofs.Ids
import AppShell.Proofs.Storage.Enrolment
import AppShell.Proofs.Storage.Delivery
import AppShell.Proofs.Storage.Denial
import AppShell.Proofs.Notifications.Timeline
import AppShell.Proofs.Notifications.Script
import AppShell.Proofs.Notifications.Shape
import AppShell.Proofs.Course
import AppShell.Proofs.Panels.History
import AppShell.Proofs.Panels.Steps
import AppShell.Proofs.Panels.Ownership
import AppShell.Proofs.Panels.Updaters
import AppShell.Proofs.Panels.Landing
import AppShell.Proofs.Notifications.Journal
import AppShell.Proofs.Notifications.Dismissal
import AppShell.Proofs.Notifications.Handles
import AppShell.Proofs.Boards.Audience
import AppShell.Proofs.Boards.Posting
import AppShell.Proofs.Boards.Steps
import AppShell.Proofs.Boards.Outdated
import AppShell.Proofs.Storage.Announcing
import AppShell.Proofs.Storage.Overtaking
import AppShell.Proofs.Storage.Plain
import AppShell.Proofs.Storage.Ledger
import AppShell.Proofs.Storage.Books
import AppShell.Proofs.Storage.Twins
import AppShell.Proofs.Storage.Closing
import AppShell.Proofs.Preferences.RoundTrip
import AppShell.Proofs.Preferences.Readers
import AppShell.Proofs.Text
import AppShell.Proofs.Host.Cookies
import AppShell.Proofs.Host.Routing
import AppShell.Proofs.Host.Session
import AppShell.Proofs.Host.Tokens
import AppShell.Proofs.Calendar.RoundTrip
import AppShell.Proofs.Json.Grammar
import AppShell.Proofs.Json.Skipping
import AppShell.Proofs.Calendar.Offsets
import AppShell.Proofs.Calendar.Order
import AppShell.Proofs.Boards.Recording
import AppShell.Proofs.Calendar.TimeValue
import AppShell.Proofs.Boards.Announced
import AppShell.Proofs.Calendar.Renderings
import AppShell.Proofs.Json.Reading
import AppShell.Proofs.Json.Integers
import AppShell.Proofs.Json.Printing
import AppShell.Proofs.Json.Extent
import AppShell.Proofs.Failure.Details
import AppShell.Proofs.Failure.Causes
import AppShell.Proofs.Failure.Classification
import AppShell.Proofs.Host.Configuration
import AppShell.Proofs.Host.Guarding
import AppShell.Proofs.Host.Policies
import AppShell.Proofs.Preferences.Drafts
import AppShell.Proofs.Json.Accepting
import AppShell.Proofs.Failure.Responses
import AppShell.Proofs.Json.Forms
import AppShell.Proofs.Preferences.Accepting
import AppShell.Proofs.Markup.Reading
import AppShell.Proofs.View.NotificationBar
import AppShell.Proofs.Subscriptions.History
