import Gateway.Backend.Exchange
import Gateway.Main
import Gateway.Proofs.Graph.Sight
import Gateway.Proofs.Run.Row
import Gateway.Proofs.Run.Timing
import Gateway.Proofs.Run.Schedule
import Gateway.Proofs.Graph.Schedule
import Gateway.Proofs.Evaluation.Reads
import Gateway.Proofs.Graph.Agreement
import Gateway.Proofs.Endpoint.Agreement
import Gateway.Proofs.Graph.Acceptance
import Gateway.Proofs.Graph.Shape
import Gateway.Proofs.Run.Announcement
import Gateway.Proofs.Endpoint.Cancellation
import Gateway.Proofs.Endpoint.Publication
import Gateway.Proofs.Endpoint.Single
import Gateway.Proofs.Run.Isolation
import Gateway.Proofs.Endpoint.Transparency
import Gateway.Proofs.Backend.Resolution
import Gateway.Proofs.Endpoint.Admission
import Gateway.Proofs.Endpoint.Skipping
import Gateway.Proofs.Http.Recorded
import Gateway.Proofs.Evaluation.Untouched
import Gateway.Proofs.Producer.Override
import Gateway.Proofs.Evaluation.Overwriting
import Gateway.Proofs.Evaluation.Substitution
import Gateway.Proofs.Endpoint.Revision
import Gateway.Proofs.Evaluation.Unbound
import Gateway.Proofs.Evaluation.Forms
import Gateway.Proofs.Endpoint.Timeouts
import Gateway.Proofs.Router.Construction
import Gateway.Proofs.Graph.Irredundance
import Gateway.Proofs.Producer.WriteOnce
