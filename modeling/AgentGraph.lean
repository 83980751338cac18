import AgentGraph.Main
import AgentGraph.Run.Rehearsal
import AgentGraph.Run.Channel
import AgentGraph.Run.Session
import AgentGraph.Proofs.Text.Template
import AgentGraph.Proofs.Workflow.Valid
import AgentGraph.Proofs.Workflow.Follow
import AgentGraph.Proofs.Workflow.Effect
import AgentGraph.Proofs.Workflow.Lint
import AgentGraph.Proofs.Workflow.Authoring
import AgentGraph.Proofs.Workflow.Path
import AgentGraph.Proofs.Workflow.Label
import AgentGraph.Proofs.Run.Choice
import AgentGraph.Proofs.Run.Route
import AgentGraph.Proofs.Run.Course
import AgentGraph.Proofs.Run.Journey
import AgentGraph.Proofs.Run.GraphWalk
import AgentGraph.Proofs.Run.DeadEnd
import AgentGraph.Proofs.Run.Progress
import AgentGraph.Proofs.Run.Mark
import AgentGraph.Proofs.Run.Outcome
import AgentGraph.Proofs.Run.Account
import AgentGraph.Proofs.Run.Story
import AgentGraph.Proofs.Run.Containment
import AgentGraph.Proofs.Run.Alike
import AgentGraph.Proofs.Run.Stop
import AgentGraph.Proofs.Run.Calls
import AgentGraph.Proofs.Run.Imitation
import AgentGraph.Proofs.Run.Occasion
import AgentGraph.Proofs.Run.Profile
import AgentGraph.Proofs.Run.Arrival
import AgentGraph.Proofs.Run.Output
import AgentGraph.Proofs.Run.Variable
import AgentGraph.Proofs.Run.Reach
import AgentGraph.Proofs.Run.Routing
import AgentGraph.Proofs.Run.Session
import AgentGraph.Proofs.Run.Written
import AgentGraph.Proofs.Run.Guard
import AgentGraph.Proofs.Run.Ceiling
import AgentGraph.Proofs.Cli.Save
import AgentGraph.Proofs.Workflow.Upkeep
import AgentGraph.Proofs.Synthesis.Draft
import AgentGraph.Proofs.Synthesis.Conversation
import AgentGraph.Proofs.Synthesis.Faithful
import AgentGraph.Proofs.Store.Shelf
import AgentGraph.Proofs.Text.Placeholder
import AgentGraph.Proofs.Text.Scan
import AgentGraph.Proofs.Text.Lower
import AgentGraph.Proofs.Workflow.Frame
import AgentGraph.Proofs.Json.Returns
import AgentGraph.Proofs.Synthesis.Fate
import AgentGraph.Proofs.Synthesis.Presentation
import AgentGraph.Proofs.Workflow.Diagnosis
import AgentGraph.Proofs.Condition.Whole
import AgentGraph.Proofs.Store.RunLog
import AgentGraph.Proofs.Run.Coverage
