import Workbench.Apps.ImportDialog
import Workbench.Backend
import Workbench.Cli.Run
import Workbench.Dispatch
import Workbench.Files.Tree
import Workbench.Http.Message
import Workbench.Main
import Workbench.Proofs.Document
import Workbench.Proofs.Page.Ledger
import Workbench.Proofs.Page.Selection
import Workbench.Proofs.Page.Toggling
import Workbench.Proofs.Scan
import Workbench.Proofs.Menu
import Workbench.Proofs.Transfer.Run
import Workbench.Proofs.Dispatch
import Workbench.Proofs.Transfer.Faithful
import Workbench.Proofs.Page.Origin
import Workbench.Proofs.Listing
import Workbench.Proofs.Refusal
import Workbench.Proofs.Registration.HostCheck
import Workbench.Proofs.ImportDialog
import Workbench.Proofs.Answer.ErrorCode
import Workbench.Proofs.Cli.Choice
import Workbench.Proofs.Cli.Output
import Workbench.Proofs.Cli.Masking
import Workbench.Proofs.Cli.Settings
import Workbench.Proofs.Page.Settlement
import Workbench.Proofs.Files.Download
import Workbench.Proofs.Extension
import Workbench.Proofs.Menu.FirstWord
import Workbench.Proofs.Menu.Shown
import Workbench.Proofs.Dispatch.Publishing
import Workbench.Proofs.Dispatch.Accepting
import Workbench.Proofs.Extension.Encoding
import Workbench.Proofs.Transfer.Export
import Workbench.Proofs.Document.Format
import Workbench.Proofs.Transfer.Graph
import Workbench.Proofs.Listing.Channels
import Workbench.Proofs.ImportDialog.Choice
import Workbench.Proofs.Files.Sharing
import Workbench.Proofs.Transfer.CopyName
import Workbench.Proofs.Menu.Word
