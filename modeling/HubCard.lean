import HubCard.Main
import HubCard.Proofs.Run
import HubCard.Proofs.Timers
import HubCard.Proofs.Busy
import HubCard.Proofs.Lamp
import HubCard.Proofs.Effects
import HubCard.Proofs.Selector
import HubCard.Proofs.Refinement
import HubCard.Proofs.Invariants
import HubCard.Proofs.Waking
import HubCard.Proofs.Selection
import HubCard.Proofs.Resolution
import HubCard.Proofs.Shortcuts
import HubCard.Proofs.Alarms
import HubCard.Proofs.History
import HubCard.Proofs.Display
import HubCard.Proofs.Confirmation
import HubCard.Proofs.Loading
import HubCard.Proofs.Pressing
import HubCard.Proofs.Answers
import HubCard.Proofs.Painting
import HubCard.Proofs.Repetition
import HubCard.Proofs.Freshness
import HubCard.Proofs.Register
import HubCard.Proofs.WriteBack
import HubCard.Proofs.Deadlines
import HubCard.Proofs.Stamps
import HubCard.Proofs.Replay
import HubCard.Proofs.Idling
import HubCard.Proofs.Numbers
import HubCard.Proofs.Power
import HubCard.Proofs.Draining
import HubCard.Proofs.Variables
import HubCard.Proofs.Background
import HubCard.Proofs.Arrival
import HubCard.Proofs.Ignored
import HubCard.Proofs.Ids
import HubCard.Proofs.Capabilities
import HubCard.Proofs.Aliases
import HubCard.Proofs.Handles
import HubCard.Proofs.Saving
