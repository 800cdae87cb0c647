import MmtCore.Pfcpgen.Codegen

/-!
# The PFCP definitions

The information elements of `pfcp_ie_types.yaml` that a message can carry, and the messages of
`pfcp_messages.yaml`.
-/

namespace MmtCore.Pfcpgen

/-! ## Rows named after their type

The letter is the presence; where there can be several of the element, an `s` follows. -/

namespace IETypeDef

variable (t : IETypeDef)

def m : String × Presence × Bool × IETypeDef := (t.name, .M, false, t)
def c : String × Presence × Bool × IETypeDef := (t.name, .C, false, t)
def o : String × Presence × Bool × IETypeDef := (t.name, .O, false, t)
def ms : String × Presence × Bool × IETypeDef := (t.name, .M, true, t)
def cs : String × Presence × Bool × IETypeDef := (t.name, .C, true, t)

end IETypeDef

def byteContainer (name : String) (typeCode : UInt16) (minLength : Nat) : IETypeDef :=
  .single name typeCode (.container minLength)

def grouped (name : String) (typeCode : UInt16)
    (members : List (String × Presence × Bool × IETypeDef)) : IETypeDef :=
  .grouped name typeCode (.ofList members)

def message (name : String) (messageType : UInt8) (hasSEID : Bool)
    (ies : List (String × Presence × Bool × IETypeDef)) : MessageDef :=
  ⟨name, messageType, hasSEID, .ofList ies⟩

/-! ## Elements that are not grouped -/

def fseid : IETypeDef := .single "FSEID" 57 (.runtimeAlias .FSEID)
def nodeID : IETypeDef := .single "NodeID" 60 (.runtimeAlias .NodeID)
def fteid : IETypeDef := .single "FTEID" 21 (.runtimeAlias .FTEID)
def cause : IETypeDef := .single "Cause" 19 (.structured 1 [.uint8])
def sourceInterface : IETypeDef := .single "SourceInterface" 20 (.bitField [⟨4, 0⟩])
def networkInstance := byteContainer "NetworkInstance" 22 1
def sdfFilter : IETypeDef :=
  .single "SDFFilter" 23 (.flagConditional true [⟨0, .utf8 .u16⟩, ⟨1, .uint16⟩, ⟨2, .uint32⟩,
    ⟨3, .uint24⟩, ⟨4, .uint32⟩, ⟨5, .smmiiList⟩])
def applicationID := byteContainer "ApplicationID" 24 1
def gateStatus : IETypeDef := .single "GateStatus" 25 (.bitField [⟨2, 2⟩, ⟨2, 0⟩])
def mbr : IETypeDef := .single "MBR" 26 (.runtimeAlias .MBR)
def gbr : IETypeDef := .single "GBR" 27 (.runtimeAlias .MBR)
def qerCorrelationID : IETypeDef := .single "QERCorrelationID" 28 (.structured 4 [.uint32])
def precedence : IETypeDef := .single "Precedence" 29 (.structured 4 [.uint32])
def transportLevelMarking := byteContainer "TransportLevelMarking" 30 2
def volumeThreshold : IETypeDef :=
  .single "VolumeThreshold" 31 (.flagConditional false [⟨0, .uint64⟩, ⟨1, .uint64⟩, ⟨2, .uint64⟩])
def timeThreshold : IETypeDef := .single "TimeThreshold" 32 (.structured 4 [.uint32])
def monitoringTime := byteContainer "MonitoringTime" 33 4
def subsequentVolumeThreshold : IETypeDef :=
  .single "SubsequentVolumeThreshold" 34 (.flagConditional false [⟨0, .uint64⟩, ⟨1, .uint64⟩,
    ⟨2, .uint64⟩])
def subsequentTimeThreshold : IETypeDef :=
  .single "SubsequentTimeThreshold" 35 (.structured 4 [.uint32])
def inactivityDetectionTime := byteContainer "InactivityDetectionTime" 36 4
def reportingTriggers : IETypeDef := .single "ReportingTriggers" 37 (.structured 2 [.uint16])
def redirectInformation := byteContainer "RedirectInformation" 38 1
def reportType : IETypeDef :=
  .single "ReportType" 39 (.bitField [⟨1, 6⟩, ⟨1, 5⟩, ⟨1, 4⟩, ⟨1, 3⟩, ⟨1, 2⟩, ⟨1, 1⟩, ⟨1, 0⟩])
def offendingIE : IETypeDef := .single "OffendingIE" 40 (.structured 2 [.uint16])
def forwardingPolicy := byteContainer "ForwardingPolicy" 41 1
def destinationInterface : IETypeDef := .single "DestinationInterface" 42 (.bitField [⟨4, 0⟩])
def upFunctionFeatures := byteContainer "UPFunctionFeatures" 43 2
def applyAction : IETypeDef :=
  .single "ApplyAction" 44 (.bitField [⟨1, 4⟩, ⟨1, 3⟩, ⟨1, 2⟩, ⟨1, 1⟩, ⟨1, 0⟩])
def downlinkDataServiceInformation := byteContainer "DownlinkDataServiceInformation" 45 1
def downlinkDataNotificationDelay := byteContainer "DownlinkDataNotificationDelay" 46 1
def dlBufferingDuration := byteContainer "DLBufferingDuration" 47 1
def dlBufferingSuggestedPacketCount := byteContainer "DLBufferingSuggestedPacketCount" 48 1
def pfcpsmReqFlags := byteContainer "PFCPSMReqFlags" 49 1
def pfcpsrRspFlags := byteContainer "PFCPSRRspFlags" 50 1
def sequenceNumber := byteContainer "SequenceNumber" 52 4
def metric := byteContainer "Metric" 53 1
def timer := byteContainer "Timer" 55 1
def packetDetectionRuleID : IETypeDef :=
  .single "PacketDetectionRuleID" 56 (.structured 2 [.uint16])
def pfdContents := byteContainer "PFDContents" 61 1
def measurementMethod : IETypeDef :=
  .single "MeasurementMethod" 62 (.bitField [⟨1, 2⟩, ⟨1, 1⟩, ⟨1, 0⟩])
def usageReportTrigger : IETypeDef := .single "UsageReportTrigger" 63 (.structured 2 [.uint16])
def measurementPeriod : IETypeDef := .single "MeasurementPeriod" 64 (.structured 4 [.uint32])
def fqcsid := byteContainer "FQCSID" 65 1
def volumeMeasurement := byteContainer "VolumeMeasurement" 66 1
def durationMeasurement : IETypeDef := .single "DurationMeasurement" 67 (.structured 4 [.uint32])
def timeOfFirstPacket := byteContainer "TimeOfFirstPacket" 69 4
def timeOfLastPacket := byteContainer "TimeOfLastPacket" 70 4
def quotaHoldingTime := byteContainer "QuotaHoldingTime" 71 4
def droppedDLTrafficThreshold := byteContainer "DroppedDLTrafficThreshold" 72 1
def volumeQuota := byteContainer "VolumeQuota" 73 1
def timeQuota := byteContainer "TimeQuota" 74 4
def startTime := byteContainer "StartTime" 75 4
def endTime := byteContainer "EndTime" 76 4
def urrid : IETypeDef := .single "URRID" 81 (.structured 4 [.uint32])
def linkedURRID : IETypeDef := .single "LinkedURRID" 82 (.structured 4 [.uint32])
def outerHeaderCreation : IETypeDef :=
  .single "OuterHeaderCreation" 84 (.runtimeAlias .OuterHeaderCreation)
def barid : IETypeDef := .single "BARID" 88 (.structured 1 [.uint8])
def cpFunctionFeatures := byteContainer "CPFunctionFeatures" 89 1
def usageInformation := byteContainer "UsageInformation" 90 1
def applicationInstanceID := byteContainer "ApplicationInstanceID" 91 1
def flowInformation := byteContainer "FlowInformation" 92 3
def ueipAddress : IETypeDef := .single "UEIPAddress" 93 (.runtimeAlias .UEIPAddress)
def packetRate := byteContainer "PacketRate" 94 1
def outerHeaderRemoval := byteContainer "OuterHeaderRemoval" 95 1
def recoveryTimeStamp : IETypeDef := .single "RecoveryTimeStamp" 96 (.structured 4 [.uint32])
def dlFlowLevelMarking := byteContainer "DLFlowLevelMarking" 97 1
def headerEnrichment := byteContainer "HeaderEnrichment" 98 1
def measurementInformation := byteContainer "MeasurementInformation" 100 1
def nodeReportType := byteContainer "NodeReportType" 101 1
def remoteGTPUPeer := byteContainer "RemoteGTPUPeer" 103 1
def urseqn := byteContainer "URSEQN" 104 4
def activatePredefinedRules := byteContainer "ActivatePredefinedRules" 106 1
def deactivatePredefinedRules := byteContainer "DeactivatePredefinedRules" 107 1
def farid : IETypeDef := .single "FARID" 108 (.structured 4 [.uint32])
def qerid : IETypeDef := .single "QERID" 109 (.structured 4 [.uint32])
def ociFlags := byteContainer "OCIFlags" 110 1
def pfcpAssociationReleaseRequest := byteContainer "PFCPAssociationReleaseRequest" 111 1
def gracefulReleasePeriod := byteContainer "GracefulReleasePeriod" 112 1
def pdnType : IETypeDef := .single "PDNType" 113 (.bitField [⟨3, 0⟩])
def failedRuleID := byteContainer "FailedRuleID" 114 5
def timeQuotaMechanism := byteContainer "TimeQuotaMechanism" 115 5
def userPlaneIPResourceInformation := byteContainer "UserPlaneIPResourceInformation" 116 1
def userPlaneInactivityTimer := byteContainer "UserPlaneInactivityTimer" 117 4
def multiplier := byteContainer "Multiplier" 119 9
def aggregatedURRID := byteContainer "AggregatedURRID" 120 4
def subsequentVolumeQuota := byteContainer "SubsequentVolumeQuota" 121 1
def subsequentTimeQuota := byteContainer "SubsequentTimeQuota" 122 4
def rqi := byteContainer "RQI" 123 1
def qfi : IETypeDef := .single "QFI" 124 (.bitField [⟨6, 0⟩])
def queryURRReference := byteContainer "QueryURRReference" 125 4
def additionalUsageReportsInformation := byteContainer "AdditionalUsageReportsInformation" 126 2
def trafficEndpointID : IETypeDef := .single "TrafficEndpointID" 131 (.structured 1 [.uint8])
def macAddress := byteContainer "MACAddress" 133 1
def ctag := byteContainer "CTAG" 134 3
def stag := byteContainer "STAG" 135 3
def ethertype := byteContainer "Ethertype" 136 2
def proxying := byteContainer "Proxying" 137 1
def ethernetFilterID := byteContainer "EthernetFilterID" 138 4
def ethernetFilterProperties := byteContainer "EthernetFilterProperties" 139 1
def suggestedBufferingPacketsCount := byteContainer "SuggestedBufferingPacketsCount" 140 1
def userID : IETypeDef :=
  .single "UserID" 141 (.flagConditional false [⟨0, .tbcdDigits .u8⟩, ⟨1, .tbcdDigits .u8⟩, ⟨2,
    .tbcdDigits .u8⟩, ⟨3, .utf8 .u8⟩, ⟨4, .utf8 .u8⟩, ⟨5, .utf8 .u8⟩, ⟨6, .utf8 .u8⟩])
def ethernetPDUSessionInformation := byteContainer "EthernetPDUSessionInformation" 142 1
def macAddressesDetected := byteContainer "MACAddressesDetected" 144 1
def macAddressesRemoved := byteContainer "MACAddressesRemoved" 145 1
def ethernetInactivityTimer := byteContainer "EthernetInactivityTimer" 146 4
def eventQuota := byteContainer "EventQuota" 148 4
def eventThreshold := byteContainer "EventThreshold" 149 4
def subsequentEventQuota := byteContainer "SubsequentEventQuota" 150 4
def subsequentEventThreshold := byteContainer "SubsequentEventThreshold" 151 4
def traceInformation := byteContainer "TraceInformation" 152 1
def framedRoute := byteContainer "FramedRoute" 153 1
def framedRouting := byteContainer "FramedRouting" 154 4
def framedIPv6Route := byteContainer "FramedIPv6Route" 155 1
def eventTimeStamp := byteContainer "EventTimeStamp" 156 4
def averagingWindow := byteContainer "AveragingWindow" 157 4
def pagingPolicyIndicator := byteContainer "PagingPolicyIndicator" 158 1
def apndnn : IETypeDef := .single "APNDNN" 159 (.runtimeAlias .APNDNN)
def threeGPPInterfaceType := byteContainer "ThreeGPPInterfaceType" 160 1
def pfcpsrReqFlags := byteContainer "PFCPSRReqFlags" 161 1
def pfcpauReqFlags := byteContainer "PFCPAUReqFlags" 162 1
def activationTime := byteContainer "ActivationTime" 163 4
def deactivationTime := byteContainer "DeactivationTime" 164 4
def marid : IETypeDef := .single "MARID" 170 (.structured 2 [.uint16])
def steeringFunctionality := byteContainer "SteeringFunctionality" 171 1
def steeringMode := byteContainer "SteeringMode" 172 1
def weight := byteContainer "Weight" 173 1
def priorityIE := byteContainer "PriorityIE" 174 1
def ueipAddressPoolIdentity := byteContainer "UEIPAddressPoolIdentity" 177 1
def alternativeSMFIPAddress := byteContainer "AlternativeSMFIPAddress" 178 1
def packetReplicationAndDetectionCarryOnInformation :=
  byteContainer "PacketReplicationAndDetectionCarryOnInformation" 179 1
def smfSetID := byteContainer "SMFSetID" 180 1
def quotaValidityTime := byteContainer "QuotaValidityTime" 181 4
def numberOfReports := byteContainer "NumberOfReports" 182 2
def cppfcpEntityIPAddress := byteContainer "CPPFCPEntityIPAddress" 185 1
def pfcpseReqFlags := byteContainer "PFCPSEReqFlags" 186 1
def ipMulticastAddress := byteContainer "IPMulticastAddress" 191 1
def sourceIPAddress := byteContainer "SourceIPAddress" 192 1
def packetRateStatus := byteContainer "PacketRateStatus" 193 1
def createBridgeInfoForTSC := byteContainer "CreateBridgeInfoForTSC" 194 1
def dsttPortNumber := byteContainer "DSTTPortNumber" 196 4
def nwttPortNumber := byteContainer "NWTTPortNumber" 197 4
def fiveGSUserPlaneNode := byteContainer "FiveGSUserPlaneNode" 198 1
def requestedClockDriftInformation := byteContainer "RequestedClockDriftInformation" 204 1
def tsnTimeDomainNumber := byteContainer "TSNTimeDomainNumber" 206 1
def timeOffsetThreshold := byteContainer "TimeOffsetThreshold" 207 8
def cumulativeRateRatioThreshold := byteContainer "CumulativeRateRatioThreshold" 208 4
def timeOffsetMeasurement := byteContainer "TimeOffsetMeasurement" 209 8
def cumulativeRateRatioMeasurement := byteContainer "CumulativeRateRatioMeasurement" 210 4
def removeSRR := byteContainer "RemoveSRR" 211 4
def srrid := byteContainer "SRRID" 215 1
def requestedAccessAvailabilityInformation :=
  byteContainer "RequestedAccessAvailabilityInformation" 217 1
def accessAvailabilityInformation := byteContainer "AccessAvailabilityInformation" 219 1
def mptcpControlInformation := byteContainer "MPTCPControlInformation" 218 1
def atsssllControlInformation := byteContainer "ATSSSLLControlInformation" 219 1
def pmfControlInformation := byteContainer "PMFControlInformation" 220 1
def mptcpAddressInformation := byteContainer "MPTCPAddressInformation" 224 1
def ueLinkSpecificIPAddress := byteContainer "UELinkSpecificIPAddress" 225 1
def pmfAddressInformation := byteContainer "PMFAddressInformation" 226 1
def atsssllInformation := byteContainer "ATSSSLLInformation" 227 1
def dataNetworkAccessIdentifier := byteContainer "DataNetworkAccessIdentifier" 228 1
def snssai := byteContainer "SNSSAI" 257 4
def userPlaneNodeManagementInformationContainer :=
  byteContainer "UserPlaneNodeManagementInformationContainer" 266 1
def portManagementInformationContainer := byteContainer "PortManagementInformationContainer" 202 1

/-! ## Grouped elements -/

def pfdContext := grouped "PFDContext" 59 [pfdContents.ms]

def applicationIDsPFDs := grouped "ApplicationIDsPFDs" 58 [applicationID.m, pfdContext.cs]

def pfcpSessionRetentionInformation := grouped "PFCPSessionRetentionInformation" 183
  [cppfcpEntityIPAddress.m]

def ueipAddressPoolInformation := grouped "UEIPAddressPoolInformation" 229
  [ueipAddressPoolIdentity.m, networkInstance.cs, snssai.c, ("IPVersion", .C, false, pdnType)]

def clockDriftControlInformation := grouped "ClockDriftControlInformation" 203
  [requestedClockDriftInformation.m, tsnTimeDomainNumber.cs, timeOffsetThreshold.c,
   cumulativeRateRatioThreshold.c]

def userPlanePathFailureReport := grouped "UserPlanePathFailureReport" 102 [remoteGTPUPeer.ms]

def userPlanePathRecoveryReport := grouped "UserPlanePathRecoveryReport" 187 [remoteGTPUPeer.ms]

def clockDriftReport := grouped "ClockDriftReport" 205
  [tsnTimeDomainNumber.m, timeOffsetMeasurement.c, cumulativeRateRatioMeasurement.c,
   eventTimeStamp.c]

def ethernetPacketFilter := grouped "EthernetPacketFilter" 132
  [ethernetFilterID.c, ethernetFilterProperties.c, macAddress.cs, ethertype.cs, ctag.cs, stag.cs,
   sdfFilter.cs]

def pdi := grouped "PDI" 2
  [sourceInterface.m, fteid.c, networkInstance.c, ueipAddress.cs, trafficEndpointID.cs,
   sdfFilter.cs, applicationID.c, ethernetPDUSessionInformation.c, ethernetPacketFilter.cs, qfi.cs,
   framedRoute.cs, framedRouting.c, framedIPv6Route.cs, threeGPPInterfaceType.c]

def createPDR := grouped "CreatePDR" 1
  [("PDRID", .M, false, packetDetectionRuleID), precedence.m, pdi.m, outerHeaderRemoval.c, farid.c,
   urrid.cs, qerid.cs, activatePredefinedRules.cs, activationTime.c, deactivationTime.c, marid.c,
   packetReplicationAndDetectionCarryOnInformation.c]

def forwardingParameters := grouped "ForwardingParameters" 4
  [destinationInterface.m, networkInstance.c, redirectInformation.c, outerHeaderCreation.c,
   transportLevelMarking.c, forwardingPolicy.c, headerEnrichment.c, trafficEndpointID.c, proxying.c,
   threeGPPInterfaceType.c, dataNetworkAccessIdentifier.c]

def duplicatingParameters := grouped "DuplicatingParameters" 5
  [destinationInterface.m, outerHeaderCreation.c, transportLevelMarking.c, forwardingPolicy.c]

def createFAR := grouped "CreateFAR" 3
  [farid.m, applyAction.m, forwardingParameters.c, duplicatingParameters.cs, barid.c]

def aggregatedURRs := grouped "AggregatedURRs" 118 [aggregatedURRID.m, multiplier.m]

def additionalMonitoringTime := grouped "AdditionalMonitoringTime" 147
  [monitoringTime.m, subsequentVolumeThreshold.c, subsequentTimeThreshold.c,
   subsequentVolumeQuota.c, subsequentTimeQuota.c, subsequentEventThreshold.c,
   subsequentEventQuota.c]

def createURR := grouped "CreateURR" 6
  [urrid.m, measurementMethod.m, reportingTriggers.m, measurementPeriod.c, volumeThreshold.c,
   volumeQuota.c, eventThreshold.c, eventQuota.c, timeThreshold.c, timeQuota.c, quotaHoldingTime.c,
   droppedDLTrafficThreshold.c, quotaValidityTime.c, monitoringTime.c, subsequentVolumeThreshold.c,
   subsequentTimeThreshold.c, subsequentVolumeQuota.c, subsequentTimeQuota.c,
   subsequentEventThreshold.c, subsequentEventQuota.c, inactivityDetectionTime.c, linkedURRID.cs,
   measurementInformation.c, timeQuotaMechanism.c, aggregatedURRs.cs,
   ("FarIDForQuotaAction", .C, false, farid), ethernetInactivityTimer.c,
   additionalMonitoringTime.cs, numberOfReports.c]

def createQER := grouped "CreateQER" 7
  [qerid.m, qerCorrelationID.c, gateStatus.m, mbr.c, gbr.c, packetRate.c, packetRateStatus.c,
   dlFlowLevelMarking.c, qfi.c, rqi.c, pagingPolicyIndicator.c, averagingWindow.c]

def createBAR := grouped "CreateBAR" 85
  [barid.m, downlinkDataNotificationDelay.c, suggestedBufferingPacketsCount.c]

def createTrafficEndpoint := grouped "CreateTrafficEndpoint" 127
  [trafficEndpointID.m, fteid.c, networkInstance.c, ueipAddress.c, ethernetPDUSessionInformation.c,
   framedRoute.cs, framedRouting.c, framedIPv6Route.cs, qfi.cs, threeGPPInterfaceType.c]

def accessForwardingActionInformation := grouped "AccessForwardingActionInformation" 166
  [farid.m, weight.c, priorityIE.c, urrid.cs]

def nonThreeGPPAccessForwardingActionInformation :=
  grouped "NonThreeGPPAccessForwardingActionInformation" 167
  [farid.m, weight.c, priorityIE.c, urrid.cs]

def createMAR := grouped "CreateMAR" 165
  [marid.m, steeringFunctionality.m, steeringMode.m, accessForwardingActionInformation.c,
   nonThreeGPPAccessForwardingActionInformation.c]

def accessAvailabilityControlInformation := grouped "AccessAvailabilityControlInformation" 212
  [requestedAccessAvailabilityInformation.m]

def createSRR := grouped "CreateSRR" 212 [srrid.m, accessAvailabilityControlInformation.c]

def provideATSSSControlInformation := grouped "ProvideATSSSControlInformation" 216
  [mptcpControlInformation.c, atsssllControlInformation.c, pmfControlInformation.c]

def ipMulticastAddressingInfo := grouped "IPMulticastAddressingInfo" 188
  [ipMulticastAddress.m, sourceIPAddress.c]

def createdPDR := grouped "CreatedPDR" 8
  [("PDRID", .M, false, packetDetectionRuleID), fteid.c, ueipAddress.c]

def loadControlInformation := grouped "LoadControlInformation" 51 [sequenceNumber.m, metric.m]

def overloadControlInformation := grouped "OverloadControlInformation" 54
  [sequenceNumber.m, metric.m, timer.m, ociFlags.c]

def createdTrafficEndpoint := grouped "CreatedTrafficEndpoint" 128
  [trafficEndpointID.m, fteid.c, ueipAddress.c]

def mptcpParameters := grouped "MPTCPParameters" 221
  [mptcpAddressInformation.m, ueLinkSpecificIPAddress.m]

def atsssllParameters := grouped "ATSSSLLParameters" 222 [atsssllInformation.m]

def pmfParameters := grouped "PMFParameters" 223 [pmfAddressInformation.m]

def atsssControlParameters := grouped "ATSSSControlParameters" 217
  [mptcpParameters.c, atsssllParameters.c, pmfParameters.c]

def createdBridgeInfoForTSC := grouped "CreatedBridgeInfoForTSC" 195
  [dsttPortNumber.c, nwttPortNumber.cs, fiveGSUserPlaneNode.c]

def removePDR := grouped "RemovePDR" 15 [("PDRID", .M, false, packetDetectionRuleID)]

def removeFAR := grouped "RemoveFAR" 16 [farid.m]

def removeURR := grouped "RemoveURR" 17 [urrid.m]

def removeQER := grouped "RemoveQER" 18 [qerid.m]

def removeBAR := grouped "RemoveBAR" 87 [barid.m]

def removeTrafficEndpoint := grouped "RemoveTrafficEndpoint" 130 [trafficEndpointID.m]

def updatePDR := grouped "UpdatePDR" 9
  [("PDRID", .M, false, packetDetectionRuleID), outerHeaderRemoval.c, precedence.c, pdi.c, farid.c,
   urrid.cs, qerid.cs, activatePredefinedRules.cs, deactivatePredefinedRules.cs, activationTime.c,
   deactivationTime.c]

def updateForwardingParameters := grouped "UpdateForwardingParameters" 11
  [destinationInterface.c, networkInstance.c, redirectInformation.c, outerHeaderCreation.c,
   transportLevelMarking.c, forwardingPolicy.c, headerEnrichment.c, pfcpsmReqFlags.c,
   trafficEndpointID.c]

def updateDuplicatingParameters := grouped "UpdateDuplicatingParameters" 105
  [destinationInterface.c, outerHeaderCreation.c, transportLevelMarking.c, forwardingPolicy.c]

def updateFAR := grouped "UpdateFAR" 10
  [farid.m, applyAction.c, updateForwardingParameters.c, updateDuplicatingParameters.cs, barid.c]

def updateURR := grouped "UpdateURR" 13
  [urrid.m, measurementMethod.c, reportingTriggers.c, measurementPeriod.c, volumeThreshold.c,
   volumeQuota.c, timeThreshold.c, timeQuota.c, eventThreshold.c, eventQuota.c, quotaHoldingTime.c,
   droppedDLTrafficThreshold.c, quotaValidityTime.c, monitoringTime.c, measurementInformation.c,
   linkedURRID.cs]

def updateQER := grouped "UpdateQER" 14
  [qerid.m, qerCorrelationID.c, gateStatus.c, mbr.c, gbr.c, packetRate.c, dlFlowLevelMarking.c,
   qfi.c, rqi.c, pagingPolicyIndicator.c, averagingWindow.c]

def updateBARSessionModificationRequest := grouped "UpdateBARSessionModificationRequest" 86
  [barid.m, downlinkDataNotificationDelay.c, suggestedBufferingPacketsCount.c]

def updateTrafficEndpoint := grouped "UpdateTrafficEndpoint" 129
  [trafficEndpointID.m, fteid.c, networkInstance.c, ueipAddress.c, framedRoute.cs, framedRouting.c,
   framedIPv6Route.cs, qfi.cs]

def queryURR := grouped "QueryURR" 77 [urrid.m]

def removeMAR := grouped "RemoveMAR" 168 [marid.m]

def updateAccessForwardingActionInformation1 :=
  grouped "UpdateAccessForwardingActionInformation1" 175
  [farid.c, weight.c, priorityIE.c, urrid.cs]

def updateAccessForwardingActionInformation2 :=
  grouped "UpdateAccessForwardingActionInformation2" 176
  [farid.c, weight.c, priorityIE.c, urrid.cs]

def updateMAR := grouped "UpdateMAR" 169
  [marid.m, steeringFunctionality.c, steeringMode.c, updateAccessForwardingActionInformation1.c,
   updateAccessForwardingActionInformation2.c]

def updateSRR := grouped "UpdateSRR" 213 [srrid.m, accessAvailabilityControlInformation.c]

def tscManagementInformationSMReq := grouped "TSCManagementInformationSMReq" 199
  [portManagementInformationContainer.o, userPlaneNodeManagementInformationContainer.o,
   nwttPortNumber.c]

def ethernetTrafficInformation := grouped "EthernetTrafficInformation" 143
  [macAddressesDetected.cs, macAddressesRemoved.cs]

def usageReportSessionModificationResponse := grouped "UsageReportSessionModificationResponse" 78
  [urrid.m, urseqn.m, usageReportTrigger.m, startTime.c, endTime.c, volumeMeasurement.c,
   durationMeasurement.c, timeOfFirstPacket.c, timeOfLastPacket.c, usageInformation.c,
   queryURRReference.c, ethernetTrafficInformation.c]

def tscManagementInformationSMResp := grouped "TSCManagementInformationSMResp" 200
  [portManagementInformationContainer.o, userPlaneNodeManagementInformationContainer.o,
   nwttPortNumber.c]

def usageReportSessionDeletionResponse := grouped "UsageReportSessionDeletionResponse" 79
  [urrid.m, urseqn.m, usageReportTrigger.m, startTime.c, endTime.c, volumeMeasurement.c,
   durationMeasurement.c, timeOfFirstPacket.c, timeOfLastPacket.c, usageInformation.c,
   ethernetTrafficInformation.c]

def accessAvailabilityReport := grouped "AccessAvailabilityReport" 214
  [accessAvailabilityInformation.m]

def sessionReport := grouped "SessionReport" 214 [srrid.m, accessAvailabilityReport.c]

def downlinkDataReport := grouped "DownlinkDataReport" 83
  [("PDRID", .M, true, packetDetectionRuleID), downlinkDataServiceInformation.cs]

def applicationDetectionInformation := grouped "ApplicationDetectionInformation" 68
  [applicationID.m, applicationInstanceID.c, flowInformation.c,
   ("PDRID", .C, false, packetDetectionRuleID)]

def usageReportSessionReportRequest := grouped "UsageReportSessionReportRequest" 80
  [urrid.m, urseqn.m, usageReportTrigger.m, startTime.c, endTime.c, volumeMeasurement.c,
   durationMeasurement.c, applicationDetectionInformation.cs, ueipAddress.c, networkInstance.c,
   timeOfFirstPacket.c, timeOfLastPacket.c, usageInformation.c, queryURRReference.c,
   eventTimeStamp.cs, ethernetTrafficInformation.c]

def errorIndicationReport := grouped "ErrorIndicationReport" 99 [fteid.ms]

def tscManagementInformationSessRep := grouped "TSCManagementInformationSessRep" 201
  [portManagementInformationContainer.o, userPlaneNodeManagementInformationContainer.o,
   nwttPortNumber.c]

def updateBARSessionReportResponse := grouped "UpdateBARSessionReportResponse" 12
  [barid.m, downlinkDataNotificationDelay.c, dlBufferingDuration.c,
   dlBufferingSuggestedPacketCount.c, suggestedBufferingPacketsCount.c]

/-! ## Messages -/

def heartbeatRequest := message "HeartbeatRequest" 1 false [recoveryTimeStamp.m, sourceIPAddress.o]

def heartbeatResponse := message "HeartbeatResponse" 2 false [recoveryTimeStamp.m]

def pfdManagementRequest := message "PFDManagementRequest" 3 false [applicationIDsPFDs.ms, nodeID.o]

def pfdManagementResponse := message "PFDManagementResponse" 4 false
  [cause.m, offendingIE.c, nodeID.o]

def associationSetupRequest := message "AssociationSetupRequest" 5 false
  [nodeID.m, recoveryTimeStamp.m, upFunctionFeatures.c, cpFunctionFeatures.c,
   userPlaneIPResourceInformation.cs, alternativeSMFIPAddress.cs, smfSetID.c,
   pfcpSessionRetentionInformation.c, ueipAddressPoolInformation.cs,
   clockDriftControlInformation.cs]

def associationSetupResponse := message "AssociationSetupResponse" 6 false
  [nodeID.m, cause.m, recoveryTimeStamp.m, upFunctionFeatures.c, cpFunctionFeatures.c,
   userPlaneIPResourceInformation.cs, alternativeSMFIPAddress.cs, smfSetID.c,
   ueipAddressPoolInformation.cs, clockDriftControlInformation.cs]

def associationUpdateRequest := message "AssociationUpdateRequest" 7 false
  [nodeID.m, upFunctionFeatures.c, cpFunctionFeatures.c, pfcpAssociationReleaseRequest.c,
   gracefulReleasePeriod.c, pfcpauReqFlags.c, userPlaneIPResourceInformation.cs,
   alternativeSMFIPAddress.cs, smfSetID.c, clockDriftControlInformation.cs,
   ueipAddressPoolInformation.cs]

def associationUpdateResponse := message "AssociationUpdateResponse" 8 false
  [nodeID.m, cause.m, upFunctionFeatures.c, cpFunctionFeatures.c]

def associationReleaseRequest := message "AssociationReleaseRequest" 9 false [nodeID.m]

def associationReleaseResponse := message "AssociationReleaseResponse" 10 false [nodeID.m, cause.m]

def versionNotSupportedResponse : MessageDef := ⟨"VersionNotSupportedResponse", 11, false, .nil⟩

def nodeReportRequest := message "NodeReportRequest" 12 false
  [nodeID.m, nodeReportType.m, userPlanePathFailureReport.c, userPlanePathRecoveryReport.c,
   clockDriftReport.cs]

def nodeReportResponse := message "NodeReportResponse" 13 false [nodeID.m, cause.m, offendingIE.c]

def sessionSetDeletionRequest := message "SessionSetDeletionRequest" 14 false [nodeID.m, fqcsid.ms]

def sessionSetDeletionResponse := message "SessionSetDeletionResponse" 15 false
  [nodeID.m, cause.m, offendingIE.c]

def sessionEstablishmentRequest := message "SessionEstablishmentRequest" 50 true
  [nodeID.m, ("CPFSEID", .M, false, fseid), createPDR.ms, createFAR.ms, createURR.cs, createQER.cs,
   createBAR.o, createTrafficEndpoint.cs, pdnType.c, fqcsid.cs, userPlaneInactivityTimer.c,
   userID.o, traceInformation.o, apndnn.o, snssai.c, createMAR.cs, pfcpseReqFlags.c,
   createBridgeInfoForTSC.c, createSRR.cs, provideATSSSControlInformation.c,
   ipMulticastAddressingInfo.cs]

def sessionEstablishmentResponse := message "SessionEstablishmentResponse" 51 true
  [nodeID.m, cause.m, offendingIE.c, ("UPFSEID", .C, false, fseid), createdPDR.cs,
   loadControlInformation.o, overloadControlInformation.o, fqcsid.cs, failedRuleID.c,
   createdTrafficEndpoint.cs, atsssControlParameters.c, createdBridgeInfoForTSC.c]

def sessionModificationRequest := message "SessionModificationRequest" 52 true
  [("CPFSEID", .C, false, fseid), removePDR.cs, removeFAR.cs, removeURR.cs, removeQER.cs,
   removeBAR.c, removeTrafficEndpoint.cs, createPDR.cs, createFAR.cs, createURR.cs, createQER.cs,
   createBAR.c, createTrafficEndpoint.cs, updatePDR.cs, updateFAR.cs, updateURR.cs, updateQER.cs,
   ("UpdateBAR", .C, false, updateBARSessionModificationRequest), updateTrafficEndpoint.cs,
   pfcpsmReqFlags.c, queryURR.cs, fqcsid.cs, userPlaneInactivityTimer.c, queryURRReference.c,
   traceInformation.o, removeMAR.cs, updateMAR.cs, createMAR.cs, nodeID.c, removeSRR.cs,
   createSRR.cs, updateSRR.cs, provideATSSSControlInformation.c, ipMulticastAddressingInfo.cs,
   ("TSCManagementInformation", .C, true, tscManagementInformationSMReq)]

def sessionModificationResponse := message "SessionModificationResponse" 53 true
  [cause.m, offendingIE.c, createdPDR.cs, loadControlInformation.o, overloadControlInformation.o,
   ("UsageReport", .C, true, usageReportSessionModificationResponse), failedRuleID.c,
   additionalUsageReportsInformation.c, createdTrafficEndpoint.cs, atsssControlParameters.c,
   ("TSCManagementInformation", .C, true, tscManagementInformationSMResp)]

def sessionDeletionRequest : MessageDef := ⟨"SessionDeletionRequest", 54, true, .nil⟩

def sessionDeletionResponse := message "SessionDeletionResponse" 55 true
  [cause.m, offendingIE.c, loadControlInformation.o, overloadControlInformation.o,
   ("UsageReport", .C, true, usageReportSessionDeletionResponse),
   additionalUsageReportsInformation.c, packetRateStatus.cs, sessionReport.cs]

def sessionReportRequest := message "SessionReportRequest" 56 true
  [reportType.m, downlinkDataReport.c, ("UsageReport", .C, true, usageReportSessionReportRequest),
   errorIndicationReport.c, loadControlInformation.o, overloadControlInformation.o,
   additionalUsageReportsInformation.c, pfcpsrReqFlags.c, fseid.c,
   ("PacketRateStatusReport", .C, true, packetRateStatus), sessionReport.cs,
   ("TSCManagementInformation", .C, true, tscManagementInformationSessRep)]

def sessionReportResponse := message "SessionReportResponse" 57 true
  [cause.m, offendingIE.c, ("UpdateBAR", .C, false, updateBARSessionReportResponse),
   pfcpsrRspFlags.c, ("CPFSEID", .C, false, fseid), alternativeSMFIPAddress.cs]

/-- The messages of the dispatcher. -/
def messages : List MessageDef :=
  [heartbeatRequest, heartbeatResponse, pfdManagementRequest, pfdManagementResponse,
   associationSetupRequest, associationSetupResponse, associationUpdateRequest,
   associationUpdateResponse, associationReleaseRequest, associationReleaseResponse,
   versionNotSupportedResponse, nodeReportRequest, nodeReportResponse,
   sessionSetDeletionRequest, sessionSetDeletionResponse, sessionEstablishmentRequest,
   sessionEstablishmentResponse, sessionModificationRequest, sessionModificationResponse,
   sessionDeletionRequest, sessionDeletionResponse, sessionReportRequest, sessionReportResponse]

theorem nodup_messageType : (messages.map MessageDef.messageType).Nodup := by decide

end MmtCore.Pfcpgen
