import MmtCore.Upf.SessionTable
import MmtCore.Upf.Slice
import MmtCore.Pfcp.PfdRuns
import MmtCore.Pfcp.NwttRuns
import MmtCore.Amf.RegistryRuns
import MmtCore.Amf.Activation
import MmtCore.Amf.GuardRuns
import MmtCore.Amf.HandoverBinding
import MmtCore.Amf.PtiRuns
import MmtCore.Smf.BridgeTables
import MmtCore.Smf.AddressRuns
import MmtCore.Mcptt.FloorRuns
import MmtCore.N3iwf.Immunity
import MmtCore.N3iwf.MessageID
import MmtCore.Chf.ChargedOnce
import MmtCore.Chf.CreditRuns
import MmtCore.Udm.SqnRuns
import MmtCore.Ims.RegistrationRuns
import MmtCore.Ims.MediaRuns
import MmtCore.Nsacf.AdmissionRuns
import MmtCore.Sip.RoundTrip
import MmtCore.Sip.DialogRuns
import MmtCore.Sip.ServerTxnRuns
import MmtCore.Tsnaf.StreamRuns
import MmtCore.Pcf.SmPolicyRuns
import MmtCore.Pfcp.AssociationRelease
import MmtCore.Pfcpgen.VendorIEs
import MmtCore.Upf.DlReports
import MmtCore.Asn1.NoPanic
import MmtCore.Upf.ClientHello
import MmtCore.Upf.DnsResponse
import MmtCore.Upf.TscGate
import MmtCore.Pfcp.RequestTimer
import MmtCore.Pfcp.UnknownSession
import MmtCore.Pfcp.UpdateIEs
import MmtCore.Smf.UplinkTunnels
import MmtCore.Asn1.DecodeBounds
import MmtCore.Asn1.ForwardCompat
import MmtCore.Nas.UnknownIEs
import MmtCore.Upf.UrrAccounting
import MmtCore.Nas.IdentityTrips
import MmtCore.Pfcpgen.AccessPoints
import MmtCore.Smf.QosElements
import MmtCore.Amf.HeaderTypes
import MmtCore.Amf.NasProtection
import MmtCore.Smf.Epco
import MmtCore.Sip.InviteClient
import MmtCore.Amf.NgReset
import MmtCore.Sacrypto.Ecies
import MmtCore.N3iwf.Esp
import MmtCore.Pfcp.Transport
import MmtCore.Pfcpgen.RuntimeTrips
import MmtCore.Upf.SdfLines
